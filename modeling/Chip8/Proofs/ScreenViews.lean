import Chip8.Proofs.DisplayWindow
import Chip8.Proofs.Picture

/-! # Three views of the screen

A pixel can be asked for, read off the packed bytes (`packedPixel_packed`), or seen in the picture (`glyphAt_picture`). Each view
shows every pixel at its own place, so none loses anything, and each can be had from any other (`screen_views_agree`). -/

namespace Chip8

namespace Screen
variable {s s' : Screen} {x y : Nat}

/-- An element of lists of one length that stand one after the other. -/
theorem getElem?_flatMap_of_length {α β : Type} {f : α → List β} {k : Nat} (hf : ∀ a, (f a).length = k) {l : List α}
    {i j : Nat} (hi : i < l.length) (hj : j < k) : (l.flatMap f)[k * i + j]? = (f l[i])[j]? := by
  induction l generalizing i with
  | nil => cases hi
  | cons a l ih =>
    cases i with
    | zero => rw [List.flatMap_cons, Nat.mul_zero, Nat.zero_add, List.getElem?_append_left (by rw [hf]; exact hj)]; rfl
    | succ i =>
      rw [List.length_cons, Nat.succ_lt_succ_iff] at hi
      rw [List.flatMap_cons, Nat.mul_succ, List.getElem?_append_right (by rw [hf]; omega), hf,
        show k * i + k + j - k = k * i + j by omega, ih hi, List.getElem_cons_succ]

/-- What the packed bytes tell of the pixel in column `x` and row `y`. -/
def packedPixel (bytes : List UInt8) (x y : Nat) : Bool := (bytes.getD (8 * y + x / 8) 0).toNat.testBit (7 - x % 8)

theorem testBit_eq_getMsbD (b : UInt8) {k : Nat} (hk : k < 8) : b.toNat.testBit (7 - k) = b.toBitVec.getMsbD k := by
  rw [BitVec.getMsbD, decide_eq_true hk, Bool.true_and]
  rfl

theorem packedPixel_packed (s : Screen) (hx : x < 64) (hy : y < 32) : packedPixel s.packed x y = s.pixel x y := by
  have hrow : x / 8 < (packRow s.rows[y]).length := by
    show x / 8 < 8
    omega
  have hbyte : s.packed[8 * y + x / 8]? = some (packRow s.rows[y])[x / 8] := by
    have hlength (row : BitVec 64) : (packRow row).length = 8 := rfl
    have hline : y < s.rows.toList.length := by rw [Vector.length_toList]; exact hy
    rw [packed, getElem?_flatMap_of_length hlength hline hrow, Vector.getElem_toList, List.getElem?_eq_getElem hrow]
  have hbit : x % 8 < 8 := Nat.mod_lt x (by decide)
  rw [packedPixel, List.getD_eq_getElem?_getD, hbyte, Option.getD_some, testBit_eq_getMsbD _ hbit,
    getMsbD_packRow _ _ _ hrow hbit, Nat.div_add_mod, pixel_natCast s hx hy]

/-- Coordinates wrap at both edges. -/
theorem pixel_add_mul (s : Screen) (x y i j : Int) : s.pixel (x + 64 * i) (y + 32 * j) = s.pixel x y := by
  simp only [pixel, Int.add_mul_emod_self_left]

theorem pixel_eq_iff : (∀ x y : Int, s.pixel x y = s'.pixel x y) ↔ s.rows = s'.rows := by
  refine ⟨fun h => rows_eq_iff.mpr fun x y _ _ => h x y, fun h x y => ?_⟩
  simp only [pixel, h]

/-- The packed bytes hold every pixel, and nothing but the pixels. -/
theorem packed_eq_iff : s.packed = s'.packed ↔ s.rows = s'.rows := by
  refine ⟨fun h => rows_eq_iff.mpr fun x y hx hy => ?_, fun h => by rw [packed, h, packed]⟩
  rw [← packedPixel_packed s hx hy, h, packedPixel_packed s' hx hy]

end Screen

namespace View
open Screen
variable {s s' : Screen} {l x : Nat}

/-- The picture as one text, a line end between its lines. -/
def pictureText (s : Screen) : String := "\n".intercalate (picture s)

/-- The picture of the screen that the packed bytes tell of. -/
def pictureOfPacked (bytes : List UInt8) : List String := (List.range 16).map fun l =>
  String.ofList ((List.range 64).map fun x => glyph (packedPixel bytes x (2 * l)) (packedPixel bytes x (2 * l + 1)))

/-- The character in a line and a column. -/
def glyphAt (lines : List String) (l x : Nat) : Option Char := lines[l]?.bind (·.toList[x]?)

theorem length_pictureLine (s : Screen) (l : Nat) : (pictureLine s l).length = 64 := by
  rw [pictureLine, List.length_map, List.length_range]

theorem picture_shape (s : Screen) : (picture s).map String.length = List.replicate 16 64 := by
  simp only [picture, List.map_map, Function.comp_def, String.length_ofList, length_pictureLine, List.map_const',
    List.length_range]

theorem glyphAt_picture (s : Screen) (hl : l < 16) (hx : x < 64) :
    glyphAt (picture s) l x = some (glyph (s.pixel x (2 * l : Nat)) (s.pixel x (2 * l + 1 : Nat))) := by
  have hline : (picture s)[l]? = some (String.ofList (pictureLine s l)) := by
    rw [picture, List.getElem?_map, List.getElem?_range hl, Option.map_some]
  rw [glyphAt, hline, Option.bind_some, String.toList_ofList, pictureLine, List.getElem?_map, List.getElem?_range hx,
    Option.map_some]

theorem glyph_ne_newline (a b : Bool) : glyph a b ≠ '\n' := by
  revert a b
  decide

/-- The lines can be told apart in the text. -/
theorem splitOn_pictureText (s : Screen) : (pictureText s).toList.splitOn '\n' = (picture s).map String.toList := by
  have hsep : "\n".toList = ['\n'] := rfl
  rw [pictureText, String.toList_intercalate, hsep]
  refine List.splitOn_intercalate '\n' (fun line hline => ?_) ?_
  · simp only [picture, List.mem_map, exists_exists_and_eq_and, String.toList_ofList] at hline
    obtain ⟨l, -, rfl⟩ := hline
    rw [pictureLine, List.mem_map]
    rintro ⟨x, -, hx⟩
    exact glyph_ne_newline _ _ hx
  · exact List.ne_nil_of_length_pos (by rw [List.length_map, picture, List.length_map]; decide)

theorem pictureText_eq_iff : pictureText s = pictureText s' ↔ s.rows = s'.rows := by
  rw [← picture_eq_iff]
  refine ⟨fun h => ?_, fun h => by rw [pictureText, h, pictureText]⟩
  have hlines : (picture s).map String.toList = (picture s').map String.toList := by
    rw [← splitOn_pictureText, h, splitOn_pictureText]
  exact (List.map_inj_right fun _ _ => String.toList_inj.mp).mp hlines

theorem pictureOfPacked_packed (s : Screen) : pictureOfPacked s.packed = picture s := by
  refine List.map_congr_left fun l hl => congrArg String.ofList (List.map_congr_left fun x hx => ?_)
  rw [List.mem_range] at hl hx
  rw [packedPixel_packed s hx (by omega), packedPixel_packed s hx (by omega)]

/-- A pixel, at whatever coordinates it is asked for, is its bit of the packed bytes, the highest bit of a byte leftmost. The
picture has sixteen lines of 64 characters, and a character stands for the two pixels below one another at its place: it is
given by them and gives them. So screens with the same packed bytes, the same picture or the same pixels have all three in
common, and the picture can be drawn from the packed bytes. -/
theorem screen_views_agree (s s' : Screen) :
    (s.packed.length = 256 ∧ ∀ (x : Fin 64) (y : Fin 32) (i j : Int),
      packedPixel s.packed x y = s.pixel (x.val + 64 * i) (y.val + 32 * j)) ∧
    ((picture s).map String.length = List.replicate 16 64 ∧
      (pictureText s).toList.splitOn '\n' = (picture s).map String.toList) ∧
    (∀ (l : Fin 16) (x : Fin 64),
      let upper : Nat := 2 * l
      let lower : Nat := 2 * l + 1
      glyphAt (picture s) l x = some (glyph (s.pixel x.val upper) (s.pixel x.val lower)) ∧
      (glyphAt (picture s) l x = glyphAt (picture s') l x ↔
        s.pixel x.val upper = s'.pixel x.val upper ∧ s.pixel x.val lower = s'.pixel x.val lower)) ∧
    ((s.packed = s'.packed ↔ pictureText s = pictureText s') ∧
      (pictureText s = pictureText s' ↔ ∀ x y : Int, s.pixel x y = s'.pixel x y)) ∧
    pictureText s = "\n".intercalate (pictureOfPacked s.packed) := by
  refine ⟨⟨s.length_packed, fun x y i j => ?_⟩, ⟨picture_shape s, splitOn_pictureText s⟩, fun l x => ?_, ⟨?_, ?_⟩, ?_⟩
  · rw [pixel_add_mul, packedPixel_packed s x.isLt y.isLt]
  · rw [glyphAt_picture s l.isLt x.isLt, glyphAt_picture s' l.isLt x.isLt, Option.some_inj, glyph_inj]
    exact ⟨rfl, Iff.rfl⟩
  · rw [packed_eq_iff, pictureText_eq_iff]
  · rw [pictureText_eq_iff, pixel_eq_iff]
  · rw [pictureOfPacked_packed, pictureText]

end View
end Chip8

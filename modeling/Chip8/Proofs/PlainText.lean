import Chip8.Text.Cells
import Chip8.Text.Padded
import Mathlib.Algebra.Group.Nat.Defs

/-! # Plain text

A character from the blank to the tilde takes one cell, whatever stands before it, so to cut a plain text to a number of cells is
to take as many characters (`crop_of_plain`). Numbers are plain texts, and as long as their digits and their width say. -/

namespace Chip8.Text
variable {c : Char} {s : List Char} {n width base : Nat}

/-- The character is one of those from the blank to the tilde. -/
def isPlain (c : Char) : Bool := 0x20 ≤ c.toNat && c.toNat < 0x7F

theorem isPlain_iff : isPlain c = true ↔ 0x20 ≤ c.toNat ∧ c.toNat < 0x7F := by
  simp only [isPlain, Bool.and_eq_true, decide_eq_true_eq]

/-- As many edges count as lie before the first one above the character. -/
theorem isInside_append (below above : List Nat) {edge : Nat} (hbelow : ∀ e ∈ below, e ≤ c.toNat)
    (hedge : c.toNat < edge) : isInside (below ++ edge :: above) c = (below.length % 2 == 1) := by
  have hpassed : ∀ e ∈ below, decide (e ≤ c.toNat) = true := fun e he => decide_eq_true (hbelow e he)
  have hrest : (edge :: above).takeWhile (fun e => decide (e ≤ c.toNat)) = [] := by
    refine List.takeWhile_cons_of_neg ?_
    rw [decide_eq_true_eq]
    omega
  rw [isInside, List.takeWhile_append_of_pos hpassed, hrest, List.append_nil]

theorem isInside_zeroWidthEdges (h : isPlain c = true) : isInside zeroWidthEdges c = false := by
  rw [isPlain_iff] at h
  refine isInside_append [0x0, 0x20] (zeroWidthEdges.drop 3) ?_ h.2
  simp only [List.mem_cons, List.not_mem_nil, or_false]
  omega

theorem isInside_wideEdges (h : isPlain c = true) : isInside wideEdges c = false := by
  rw [isPlain_iff] at h
  have hedge : c.toNat < 0x1100 := by omega
  exact isInside_append [] (wideEdges.drop 1) nofun hedge

theorem cellWidth_of_plain (h : isPlain c = true) : cellWidth c = 1 := by
  simp only [cellWidth, isInside_zeroWidthEdges h, isInside_wideEdges h, Bool.false_eq_true, ↓reduceIte]

theorem ne_of_plain {d : Char} (h : isPlain c = true) (hd : isPlain d = false) : c ≠ d := by
  rintro rfl
  rw [h] at hd
  cases hd

/-- A plain character is a cluster by itself. -/
def single (c : Char) : Cluster := ⟨[c], 1⟩

theorem clustersFrom_of_plain (h : ∀ c ∈ s, isPlain c = true) (k : Cluster) (base : Option Char) :
    clustersFrom k base s = k :: s.map single := by
  induction s generalizing k base with
  | nil => rfl
  | cons c s ih =>
    have hc := h c (List.mem_cons_self ..)
    have hwidth := cellWidth_of_plain hc
    rw [clustersFrom.eq_def]
    simp only [ne_of_plain hc (show isPlain joiner = false by decide),
      ne_of_plain hc (show isPlain pictureSelector = false by decide), hwidth, Nat.one_ne_zero, ↓reduceIte]
    rw [ih fun d hd => h d (List.mem_cons_of_mem c hd)]
    rfl

theorem cropClusters_single (width : Nat) (s : List Char) : cropClusters width (s.map single) = s.take width := by
  induction s generalizing width with
  | nil => rw [List.map_nil, List.take_nil, cropClusters]
  | cons c s ih =>
    cases width with
    | zero => rfl
    | succ width =>
      have hfits : (single c).cells ≤ width + 1 := Nat.le_add_left 1 width
      rw [List.map_cons, cropClusters, if_pos hfits, List.take_succ_cons]
      exact congrArg (c :: ·) (ih width)

theorem crop_of_plain (h : ∀ c ∈ s, isPlain c = true) (width : Nat) : crop width s = s.take width := by
  rw [crop, clusters, clustersFrom_of_plain h, cropClusters, if_pos (Nat.zero_le width), List.nil_append, Nat.sub_zero,
    cropClusters_single]

theorem cellCount_of_plain (h : ∀ c ∈ s, isPlain c = true) : cellCount s = s.length := by
  have hcells (s : List Char) : (s.map single).foldr (fun k n => k.cells + n) 0 = s.length := by
    induction s with
    | nil => rfl
    | cons c s ih =>
      rw [List.map_cons, List.foldr_cons, ih, List.length_cons]
      exact Nat.add_comm 1 s.length
  rw [cellCount, clusters, clustersFrom_of_plain h, List.foldr_cons, hcells, Nat.zero_add]

/-! ### Numbers are plain -/

theorem exists_digit_of_mem_toDigits (hb : 1 < base) (h : c ∈ Nat.toDigits base n) : ∃ d < base, c = d.digitChar := by
  induction n using Nat.strongRecOn with
  | ind n ih =>
    rw [Nat.toDigits_eq_if hb] at h
    split at h
    · exact ⟨n, ‹_›, List.mem_singleton.mp h⟩
    · rcases List.mem_append.mp h with h | h
      · exact ih (n / base) (Nat.div_lt_self (by omega) hb) h
      · exact ⟨n % base, Nat.mod_lt n (by omega), List.mem_singleton.mp h⟩

theorem plain_of_mem_toDigits (h : c ∈ Nat.toDigits 10 n) : isPlain c = true := by
  obtain ⟨d, hd, rfl⟩ := exists_digit_of_mem_toDigits (by decide) h
  have hplain : ∀ d < 10, isPlain d.digitChar = true := by decide
  exact hplain d hd

theorem plain_of_mem_hexDigits (h : c ∈ hexDigits n) : isPlain c = true := by
  obtain ⟨c, hc, rfl⟩ := List.mem_map.mp h
  obtain ⟨d, hd, rfl⟩ := exists_digit_of_mem_toDigits (by decide) hc
  have hplain : ∀ d < 16, isPlain d.digitChar.toUpper = true := by decide
  exact hplain d hd

theorem plain_of_mem_padLeft {fill : Char} (hfill : isPlain fill = true) (hs : ∀ c ∈ s, isPlain c = true)
    (h : c ∈ padLeft width fill s) : isPlain c = true := by
  rcases List.mem_append.mp h with h | h
  · rw [List.eq_of_mem_replicate h, hfill]
  · exact hs c h

/-- All characters of the text are plain. -/
def IsPlainText (t : String) : Prop := ∀ c ∈ t.toList, isPlain c = true

instance (t : String) : Decidable (IsPlainText t) := decidable_of_iff (t.toList.all isPlain = true) List.all_eq_true

theorem IsPlainText.append {t t' : String} (h : IsPlainText t) (h' : IsPlainText t') : IsPlainText (t ++ t') := by
  intro c hc
  rw [String.toList_append] at hc
  exact (List.mem_append.mp hc).elim (h c) (h' c)

theorem isPlainText_toString (n : Nat) : IsPlainText (toString n) := by
  intro c hc
  rw [show toString n = String.ofList (Nat.toDigits 10 n) from rfl, String.toList_ofList] at hc
  exact plain_of_mem_toDigits hc

theorem isPlainText_flushRight (width n : Nat) : IsPlainText (flushRight width n) := by
  intro c hc
  rw [flushRight, String.toList_ofList] at hc
  exact plain_of_mem_padLeft (by decide) (fun c => plain_of_mem_toDigits) hc

theorem hex_natCast (width n : Nat) : hex width n = String.ofList (padLeft width '0' (hexDigits n)) := by
  rw [hex, if_neg (Int.not_lt.mpr (Int.natCast_nonneg n)), Int.natAbs_natCast]

theorem isPlainText_hex (width n : Nat) : IsPlainText (hex width n) := by
  intro c hc
  rw [hex_natCast, String.toList_ofList] at hc
  exact plain_of_mem_padLeft (by decide) (fun c => plain_of_mem_hexDigits) hc

/-! ### Lengths of numbers -/

theorem length_toString (n : Nat) : (toString n).length = (Nat.toDigits 10 n).length := String.length_ofList

/-- A number that fits its width takes just that. -/
theorem length_hex (hw : 0 < width) (h : n < 16 ^ width) : (hex width n).length = width := by
  have hdigits := (Nat.length_toDigits_le_iff (by decide) hw).mpr h
  rw [hex_natCast, String.length_ofList, length_padLeft, hexDigits, List.length_map, Nat.max_eq_left hdigits]

theorem length_flushRight (hw : 0 < width) (h : n < 10 ^ width) : (flushRight width n).length = width := by
  have hdigits := (Nat.length_toDigits_le_iff (by decide) hw).mpr h
  rw [flushRight, String.length_ofList, length_padLeft, Nat.max_eq_left hdigits]

end Chip8.Text

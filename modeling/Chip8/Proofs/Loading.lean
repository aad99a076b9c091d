import Chip8.Proofs.Blocks
import Chip8.Proofs.HeadlessReport

/-! # Loading programs

A program file is refused for its size only, and what is not refused fits between the start of programs and the display
window. So a program that was read is in memory byte for byte once it is loaded, whatever the machine held before; of a
longer image the first bytes are, and a notice tells how many. -/

namespace Chip8

/-- The path leads to a file with this content. -/
def Storage.Holds (st : Storage) (path : String) (content : List UInt8) : Prop :=
  '\x00' ∉ path.toList ∧ st.read (.ofString path) = .ok content

namespace Rom
variable {st : Storage} {path : String} {content rom : List UInt8}

theorem check_of_fits (path : String) (h : 1 ≤ content.length ∧ content.length ≤ 0xD00) :
    check path content = .ok content := by
  have hne : content.isEmpty = false := by
    rw [List.isEmpty_eq_false_iff, ← List.length_pos_iff]
    exact h.1
  have hle : ¬ Machine.programSpace < content.length := Nat.not_lt_of_le h.2
  simp [check, hne, hle]

theorem check_of_not_fits (path : String) (h : ¬ (1 ≤ content.length ∧ content.length ≤ 0xD00)) :
    check path content = .error (if content = [] then .empty path else .tooLarge path content.length 0xD00) := by
  cases content with
  | nil => rfl
  | cons b rest =>
    have hlt : 0xD00 < (b :: rest).length := by
      rw [List.length_cons] at h ⊢
      omega
    have hnil : (b :: rest).isEmpty = false := rfl
    rw [check, hnil, if_neg Bool.false_ne_true, show Machine.programSpace = 0xD00 from rfl, if_pos hlt,
      if_neg (List.cons_ne_nil b rest)]

theorem read_of_holds (h : st.Holds path content) : read st path = (check path content).mapError .rom := by
  rw [read_eq st h.1, h.2, ofRead]

theorem read_eq_ok_iff : read st path = .ok rom ↔ st.Holds path rom ∧ 1 ≤ rom.length ∧ rom.length ≤ 0xD00 := by
  constructor
  · intro h
    by_cases hnul : '\x00' ∈ path.toList
    · rw [read_of_nul st hnul] at h
      cases h
    cases hread : st.read (.ofString path) with
    | error e =>
      rw [read_eq st hnul, hread] at h
      cases h
    | ok content =>
      have hholds : st.Holds path content := ⟨hnul, hread⟩
      rw [read_of_holds hholds] at h
      by_cases hfits : 1 ≤ content.length ∧ content.length ≤ 0xD00
      · rw [check_of_fits path hfits] at h
        cases h
        exact ⟨hholds, hfits⟩
      · rw [check_of_not_fits path hfits] at h
        cases h
  · rintro ⟨hholds, hfits⟩
    rw [read_of_holds hholds, check_of_fits path hfits]
    rfl

end Rom

namespace Machine
variable {m : Machine} {rom : List UInt8}

/-- Loading `rom` into `m` answers with `count` and leaves `m'`. -/
structure Loaded (m : Machine) (rom : List UInt8) (count : Nat) (m' : Machine) : Prop where
  count_eq : count = min rom.length 0xD00
  written : ∀ j < count, m'.memory.cells[0x200 + j]? = rom[j]?
  kept : ∀ k (_ : k < 4096), ¬ (0x200 ≤ k ∧ k < 0x200 + count) → m'.memory.cells[k] = m.memory.cells[k]
  warned : m'.notices =
    if 0xD00 < rom.length then m.notices.push (.truncated count rom.length) else m.notices
  rest : m' = { m with memory := m'.memory, notices := m'.notices }

theorem length_take_programSpace (rom : List UInt8) : (rom.take programSpace).length = min rom.length 0xD00 := by
  rw [List.length_take, Nat.min_comm]
  rfl

theorem loaded_load (m : Machine) (rom : List UInt8) : Loaded m rom (m.load rom).1 (m.load rom).2 := by
  have hlen := length_take_programSpace rom
  have hstart : programStart.val = 0x200 := rfl
  have hcut : (rom.take programSpace).length < rom.length ↔ 0xD00 < rom.length := by omega
  obtain ⟨notices, hload⟩ := m.exists_load_eq rom
  have hmem : (m.load rom).2.memory = m.memory.writeBlock programStart (rom.take programSpace) := by rw [hload]
  refine ⟨hlen, ?_, ?_, ?_, ?_⟩
  · intro j hj
    change j < (rom.take programSpace).length at hj
    have hwritten := Memory.cells_writeBlock (a := programStart) m.memory hj (by omega)
    have htaken : (rom.take programSpace)[j]? = rom[j]? := List.getElem?_take_of_lt (by
      rw [show programSpace = 0xD00 from rfl]
      omega)
    rw [hmem, Vector.getElem?_eq_getElem (by omega), ← htaken, List.getElem?_eq_getElem hj]
    exact congrArg some hwritten
  · intro k hk hout
    rw [hmem]
    exact Memory.cells_writeBlock_of_outside hk hout
  · simp only [load, hcut]
    split <;> rfl
  · rw [hload]

theorem load_of_fits (m : Machine) (h : rom.length ≤ 0xD00) :
    m.load rom = (rom.length, { m with memory := m.memory.writeBlock programStart rom }) := by
  have htake : rom.take programSpace = rom := List.take_of_length_le h
  simp [load, htake]

/-- Programs are read from files of one byte up to 0xD00 bytes, and files of other sizes are refused. A program that was read is
loaded as a whole, without a notice, and is in memory from 0x200 on. Of any image the first 0xD00 bytes are loaded; a notice
tells of the others if there are any, and nothing else of the machine changes. -/
theorem load_takes_what_is_read :
    (∀ (st : Storage) path rom, Rom.read st path = .ok rom ↔ st.Holds path rom ∧ 1 ≤ rom.length ∧ rom.length ≤ 0xD00) ∧
    (∀ (st : Storage) path content, st.Holds path content → ¬ (1 ≤ content.length ∧ content.length ≤ 0xD00) →
      Rom.read st path =
        .error (.rom (if content = [] then .empty path else .tooLarge path content.length 0xD00))) ∧
    (∀ (st : Storage) path rom, Rom.read st path = .ok rom → ∀ m : Machine, ∃ memory : Memory,
      m.load rom = (rom.length, { m with memory := memory }) ∧ memory.readBlock 0x200 rom.length = rom) ∧
    ∀ (m : Machine) rom, Loaded m rom (m.load rom).1 (m.load rom).2 := by
  refine ⟨fun st path rom => Rom.read_eq_ok_iff, ?_, ?_, loaded_load⟩
  · intro st path content hholds hfits
    rw [Rom.read_of_holds hholds, Rom.check_of_not_fits path hfits]
    rfl
  · intro st path rom hread m
    obtain ⟨-, -, hle⟩ := Rom.read_eq_ok_iff.mp hread
    refine ⟨_, load_of_fits m hle, ?_⟩
    have hroom : Memory.room programStart rom.length = rom.length := by
      rw [Memory.room_length, show programStart.val = 0x200 from rfl]
      omega
    have hblock := Memory.readBlock_writeBlock m.memory programStart rom
    rw [hroom, List.take_length] at hblock
    exact hblock

/-- A machine was given an image that is one byte too long, which is cut in front of the display window; then a program of two
bytes is read and loaded over it. A file without content is refused. -/
theorem load_takes_what_is_read_after_cut :
    let st : Storage := ⟨[(["a"], .file [0x60, 0x05])]⟩
    let emptied : Storage := ⟨[(["a"], .file [])]⟩
    let m := new .released (.ofScript #[])
    let cut := (m.load (List.replicate 0xD01 7)).2
    st.Holds "a" [0x60, 0x05] ∧ Rom.read st "a" = .ok [0x60, 0x05] ∧ emptied.Holds "a" [] ∧
      Rom.read emptied "a" = .error (.rom (.empty "a")) ∧
      cut.notices = m.notices.push (.truncated 0xD00 0xD01) ∧ cut.memory.cells[0xEFF]? = some 7 ∧
      cut.memory.cells[0xF00] = m.memory.cells[0xF00] ∧
      ∃ memory : Memory, cut.load [0x60, 0x05] = (2, { cut with memory := memory }) ∧
        memory.readBlock 0x200 2 = [0x60, 0x05] := by
  intro st emptied m cut
  obtain ⟨hread, hrefused, hload, hloaded⟩ := load_takes_what_is_read
  have hholds : st.Holds "a" [0x60, 0x05] := by
    refine ⟨by decide, ?_⟩
    rw [Path.ofString_a]
    rfl
  have hemptied : emptied.Holds "a" [] := by
    refine ⟨by decide, ?_⟩
    rw [Path.ofString_a]
    rfl
  have hok : Rom.read st "a" = .ok [0x60, 0x05] := (hread st "a" _).mpr ⟨hholds, by decide, by decide⟩
  have hcut : Loaded m (List.replicate 0xD01 7) 0xD00 cut := by
    have hloaded := hloaded m (List.replicate 0xD01 7)
    have hcount : (m.load (List.replicate 0xD01 7)).1 = 0xD00 := by
      rw [hloaded.count_eq, List.length_replicate]
      rfl
    rw [hcount] at hloaded
    exact hloaded
  refine ⟨hholds, hok, hemptied, hrefused emptied "a" [] hemptied (by decide), ?_, ?_, ?_, hload st "a" _ hok cut⟩
  · have hwarned := hcut.warned
    rw [List.length_replicate, if_pos (by decide)] at hwarned
    exact hwarned
  · have hlast := hcut.written 0xCFF (by decide)
    rw [List.getElem?_replicate_of_lt (by decide)] at hlast
    exact hlast
  · exact hcut.kept 0xF00 (by decide) (by decide)

end Machine
end Chip8

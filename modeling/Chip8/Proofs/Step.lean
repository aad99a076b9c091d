import Chip8.Proofs.Effect

/-! # What a step does

`Step m r m'`: a step of `m` completes with the answer `r` and leaves `m'`. A step that does not complete meets an
instruction that is refused, and only the call stack can refuse one that was decoded: the machine is then what it was
before. -/

namespace Chip8

theorem Op.other_not_mem_all (name : String) : Op.other name ∉ Op.all := by
  intro h
  simp [Op.all] at h

namespace Instruction

theorem op_read (f : Format) (d : Digits) : (f.read d).op = f.op := by
  unfold Format.read
  split <;> rfl

/-- A decoded instruction has one of the thirty-five operations. -/
theorem op_mem_all_of_decode {w : Int} {i : Instruction} (h : decode w = some i) : i.op ∈ Op.all := by
  obtain ⟨f, hf, rfl⟩ := Option.map_eq_some_iff.mp h
  rw [op_read]
  have htable : ∀ f ∈ Format.table, f.op ∈ Op.all := by decide
  exact htable f (List.mem_of_find?_eq_some hf)

end Instruction

namespace Machine
variable {i : Instruction} {m m' : Machine} {f : Fault} {r : Option Instruction}

/-- The instruction that the program counter points at, if the word there is one. -/
def fetched (m : Machine) : Option Instruction := Instruction.decode (m.memory.readWord m.pc)

inductive Step (m : Machine) : Option Instruction → Machine → Prop
  | unrecognized (h : m.fetched = none) :
    Step m none (countStep none (skipUnrecognized (m.memory.readWord m.pc) m))
  | executed {i : Instruction} {a : MemoryAddress} {m' : Machine} (h : m.fetched = some i) (he : Effect i m a m') :
    Step m (some i) (countStep (some i.op) { m' with pc := a })

theorem step_eq (m : Machine) : m.step =
    match m.fetched with
    | none => .ok none (countStep none (skipUnrecognized (m.memory.readWord m.pc) m))
    | some i =>
      match execute i m with
      | .ok a m' => .ok (some i) (countStep (some i.op) { m' with pc := a })
      | .error f m' => .error f m' := by
  have hget : (get : Action Machine) m = .ok m m := rfl
  simp only [step, bind, EStateM.bind, hget]
  rw [← fetched]
  cases m.fetched with
  | none => rfl
  | some i =>
    simp only [EStateM.bind]
    cases execute i m <;> rfl

theorem Step.step (h : Step m r m') : m.step = .ok r m' := by
  cases h with
  | unrecognized h => simp only [step_eq, h]
  | executed h he => simp only [step_eq, h, he.execute]

theorem step_of_refusal (h : m.fetched = some i) (hf : Refusal i m f) : m.step = .error f m := by
  simp only [step_eq, h, hf.execute]

theorem step_or_refusal (m : Machine) : (∃ r m', Step m r m') ∨ ∃ i f, m.fetched = some i ∧ Refusal i m f := by
  cases h : m.fetched with
  | none => exact .inl ⟨_, _, .unrecognized h⟩
  | some i =>
    rcases effect_or_refusal i m with ⟨a, m', he⟩ | ⟨f, hf⟩
    · exact .inl ⟨_, _, .executed h he⟩
    · exact .inr ⟨i, f, rfl, hf⟩

theorem step_eq_ok : m.step = .ok r m' ↔ Step m r m' := by
  refine ⟨fun h => ?_, Step.step⟩
  rcases step_or_refusal m with ⟨r₁, m₁, hs⟩ | ⟨i, f, hi, hf⟩
  · rw [hs.step] at h
    cases h
    exact hs
  · rw [step_of_refusal hi hf] at h
    cases h

theorem step_eq_error : m.step = .error f m' ↔ m' = m ∧ ∃ i, m.fetched = some i ∧ Refusal i m f := by
  constructor
  · intro h
    rcases step_or_refusal m with ⟨r₁, m₁, hs⟩ | ⟨i, f₁, hi, hf⟩
    · rw [hs.step] at h
      cases h
    · rw [step_of_refusal hi hf] at h
      cases h
      exact ⟨rfl, i, hi, hf⟩
  · rintro ⟨rfl, i, hi, hf⟩
    exact step_of_refusal hi hf

/-- What a step can be refused for: the call stack is full for a call, or empty for a return. -/
theorem refusal_of_fetched (h : m.fetched = some i) :
    Refusal i m f ↔ i.op = .call ∧ m.stack.depth = 16 ∧ f = .stackFull (.address (m.pc + 2).address) ∨
      i.op = .ret ∧ m.stack.depth = 0 ∧ f = .stackEmpty := by
  constructor
  · intro hf
    cases hf with
    | full hop hd => exact .inl ⟨hop, hd, rfl⟩
    | empty hop hd => exact .inr ⟨hop, hd, rfl⟩
    | unknown hop =>
      have hmem := Instruction.op_mem_all_of_decode h
      rw [hop] at hmem
      exact absurd hmem (Op.other_not_mem_all _)
  · rintro (⟨hop, hd, rfl⟩ | ⟨hop, hd, rfl⟩)
    · exact .full hop hd
    · exact .empty hop hd

theorem Effect.cycles {a : MemoryAddress} (h : Effect i m a m') : m'.cycles = m.cycles := by
  cases h <;> rfl

theorem Step.cycles (h : Step m r m') : m'.cycles = m.cycles + 1 := by
  cases h with
  | unrecognized => rfl
  | executed _ he => exact congrArg (· + 1) he.cycles

theorem Step.answer (h : Step m r m') : r = m.fetched := by
  cases h with
  | unrecognized h => exact h.symm
  | executed h => exact h.symm

/-- A step fails exactly on a call with sixteen return addresses on the stack and on a return without one, and then
nothing of the machine has changed; every other step completes, answers with what was fetched and is counted. -/
theorem step_fails_iff (m : Machine) :
    (∀ f m', m.step = .error f m' ↔ m' = m ∧ ∃ i, m.fetched = some i ∧
      (i.op = .call ∧ m.stack.depth = 16 ∧ f = .stackFull (.address (m.pc + 2).address) ∨
        i.op = .ret ∧ m.stack.depth = 0 ∧ f = .stackEmpty)) ∧
    ∀ r m', m.step = .ok r m' → r = m.fetched ∧ m'.cycles = m.cycles + 1 := by
  refine ⟨fun f m' => ?_, fun r m' h => ?_⟩
  · rw [step_eq_error]
    refine and_congr_right fun _ => exists_congr fun i => and_congr_right fun hi => ?_
    exact refusal_of_fetched hi
  · have hs := step_eq_ok.mp h
    exact ⟨hs.answer, hs.cycles⟩

end Machine
end Chip8

import Chip8.Proofs.Step
import Mathlib.Data.List.Nodup

/-! # Groups of operations and their handlers

A handler carries out the operations of its group and refuses all others by name, without a trace on the machine (`Serves`). The
groups and the operations that need no handler divide the thirty-five among them, so a handler is never given an operation that
it refuses, and `execute` refuses only names that belong to no operation. -/

namespace Chip8

namespace Op

/-- The operations that are carried out without a handler. -/
def direct : List Op := [jp, jpv0, call, ret, cls, drw, rnd, ldk, sys]

/-- The groups that have handlers, and the rest. -/
def groups : List (List Op) := [alu, skip, index, timer, direct]

theorem groups_disjoint : groups.Pairwise List.Disjoint :=
  (List.nodup_flatten.mp (show groups.flatten.Nodup by decide)).2

theorem groups_perm_all : groups.flatten.Perm all := by decide

theorem not_mem_all_iff {op : Op} : op ∉ all ↔ ∃ name, op = other name := by
  constructor
  · intro h
    cases op with
    | other name => exact ⟨name, rfl⟩
    | _ => exact absurd (by decide) h
  · rintro ⟨name, rfl⟩
    exact other_not_mem_all name

end Op

namespace Machine
variable {α : Type} {i : Instruction} {m m' : Machine} {f : Fault}

/-- The handler fails on the operations outside of its group and on no other; it names the operation and leaves the machine as it
was. -/
def Serves (group : List Op) (fault : Op → Fault) (handler : Instruction → Action α) : Prop :=
  ∀ i m f m', handler i m = .error f m' ↔ i.op ∉ group ∧ f = fault i.op ∧ m' = m

theorem Serves.of_cases {group : List Op} {fault : Op → Fault} {handler : Instruction → Action α}
    (hok : ∀ i m, i.op ∈ group → ∃ a m', handler i m = .ok a m')
    (herror : ∀ i m, i.op ∉ group → handler i m = .error (fault i.op) m) : Serves group fault handler := by
  intro i m f m'
  by_cases h : i.op ∈ group
  · obtain ⟨a, m₁, hi⟩ := hok i m h
    rw [hi]
    exact iff_of_false nofun fun hn => hn.1 h
  · rw [herror i m h, EStateM.Result.error.injEq, and_iff_right h]
    exact and_congr eq_comm eq_comm

theorem serves_alu : Serves Op.alu .notAlu fun i => onRegisters (Registers.alu i) := by
  refine .of_cases (fun i m h => ?_) fun i m h => ?_
  · obtain ⟨r, hr⟩ := alu_eq_ok h m.registers
    exact ⟨(), { m with registers := r }, by simp only [onRegisters, hr]⟩
  · obtain ⟨op, word, x, y, addr, byte, nibble⟩ := i
    cases op with
    | ild | iadd | rld | ror | rand | rxor | radd | rsub | rsubn | shr | shl => exact absurd (by simp [Op.alu]) h
    | _ => rfl

theorem serves_skip : Serves Op.skip .notSkip skips := by
  refine .of_cases (fun i m h => ?_) fun i m h => ?_
  · obtain ⟨b, hb⟩ := skips_eq_ok h m
    exact ⟨b, m, hb⟩
  · obtain ⟨op, word, x, y, addr, byte, nibble⟩ := i
    cases op with
    | ise | isne | rse | rsne | skp | sknp => exact absurd (by simp [Op.skip]) h
    | _ => rfl

theorem serves_index : Serves Op.index .notIndex indexed := by
  refine .of_cases (fun i m h => ?_) fun i m h => ?_
  · obtain ⟨op, word, x, y, addr, byte, nibble⟩ := i
    simp only [Op.index, List.mem_cons, List.not_mem_nil, or_false] at h
    rcases h with rfl | rfl | rfl | rfl | rfl | rfl <;> exact ⟨_, _, rfl⟩
  · obtain ⟨op, word, x, y, addr, byte, nibble⟩ := i
    cases op with
    | ldi | addi | ldfi | ldbcd | dump | load => exact absurd (by simp [Op.index]) h
    | _ => rfl

theorem serves_timer : Serves Op.timer .notTimer timed := by
  refine .of_cases (fun i m h => ?_) fun i m h => ?_
  · obtain ⟨op, word, x, y, addr, byte, nibble⟩ := i
    simp only [Op.timer, List.mem_cons, List.not_mem_nil, or_false] at h
    rcases h with rfl | rfl | rfl <;> exact ⟨_, _, rfl⟩
  · obtain ⟨op, word, x, y, addr, byte, nibble⟩ := i
    cases op with
    | lddt | setdt | setst => exact absurd (by simp [Op.timer]) h
    | _ => rfl

/-- An instruction that the stack does not refuse is refused for its name, if at all. -/
theorem execute_fails_iff : execute i m = .error f m' ∧ f.isStackFault = false ↔
    i.op ∉ Op.all ∧ f = .unimplemented i.op ∧ m' = m := by
  rw [execute_eq_error, Op.not_mem_all_iff]
  constructor
  · rintro ⟨⟨rfl, hf⟩, hstack⟩
    cases hf with
    | full hop hd => cases hstack
    | empty hop hd => cases hstack
    | unknown hop => exact ⟨⟨_, hop⟩, by rw [hop], rfl⟩
  · rintro ⟨⟨name, hop⟩, rfl, rfl⟩
    exact ⟨⟨rfl, hop ▸ .unknown hop⟩, rfl⟩

/-- Every handler agrees with its group, the groups share no operation with each other or with what is carried out directly, and
together they are all operations: the stack's refusals apart, only a name that is none of them is refused. -/
theorem handlers_agree_with_groups :
    Serves Op.alu .notAlu (fun i => onRegisters (Registers.alu i)) ∧ Serves Op.skip .notSkip skips ∧
    Serves Op.index .notIndex indexed ∧ Serves Op.timer .notTimer timed ∧
    (∀ i m f m', execute i m = .error f m' ∧ f.isStackFault = false ↔
      i.op ∉ Op.all ∧ f = .unimplemented i.op ∧ m' = m) ∧
    Op.groups.Pairwise List.Disjoint ∧ Op.groups.flatten.Perm Op.all :=
  ⟨serves_alu, serves_skip, serves_index, serves_timer, fun _ _ _ _ => execute_fails_iff, Op.groups_disjoint,
    Op.groups_perm_all⟩

end Machine
end Chip8

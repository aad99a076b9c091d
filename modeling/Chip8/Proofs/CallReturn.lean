import Chip8.Proofs.History
import Mathlib.Data.List.Induction
import Mathlib.Data.List.Infix

/-! # Calls and returns

A call pushes the address behind it and the matching return, whenever it comes, goes on there. An event other than a
reset moves the return addresses by one at most (`StackMove`), so addresses that the stack has never sunk to are the
same ones in the same places. -/

namespace Chip8.Machine
variable {i : Instruction} {m m' : Machine} {a : MemoryAddress} {e : Event} {es : List Event}

/-- The return addresses stay, or get one more, or lose the newest one, which is then the program counter. -/
inductive StackMove (m m' : Machine) : Prop
  | same (h : m'.stack = m.stack)
  | push (h : m'.stack.toList = m.stack.toList ++ [m.pc + 2])
  | pop (h : m.stack.toList = m'.stack.toList ++ [m'.pc])

theorem Effect.stackMove (h : Effect i m a m') : StackMove m { m' with pc := a } := by
  cases h with
  | call _ hd => exact .push (m.stack.toList_pushed (m.pc + 2) hd)
  | ret _ hd => exact .pop (m.stack.toList_popped hd)
  | _ => exact .same rfl

theorem stackMove_stepped (m : Machine) : StackMove m m.stepped := by
  refine stepped_cases m (.same rfl) (fun _ => .same rfl) fun i a m' _ he => ?_
  cases he.stackMove with
  | same h => exact .same h
  | push h => exact .push h
  | pop h => exact .pop h

theorem stack_load (m : Machine) (rom : List UInt8) : (m.load rom).2.stack = m.stack := by
  obtain ⟨notices, h⟩ := m.exists_load_eq rom
  rw [h]

theorem stackMove_handle (m : Machine) (he : e ≠ .reset) : StackMove m (m.handle e) := by
  cases e with
  | step => exact stackMove_stepped m
  | reset => exact absurd rfl he
  | load rom => exact .same (stack_load m rom)
  | _ => exact .same rfl

namespace StackMove
variable {base : List MemoryAddress}

/-- Return addresses that the stack does not sink below are kept. -/
theorem prefix_of_le (h : StackMove m m') (hb : base <+: m.stack.toList) (hd : base.length ≤ m'.stack.depth) :
    base <+: m'.stack.toList := by
  cases h with
  | same h => rwa [h]
  | push h => exact h ▸ hb.trans (List.prefix_append _ _)
  | pop h =>
    rw [h] at hb
    exact List.prefix_of_prefix_length_le hb (List.prefix_append _ _) (by rwa [CallStack.length_toList])

/-- Sinking below a return address goes on at it. -/
theorem return_of_depth (h : StackMove m m') (hb : base ++ [a] <+: m.stack.toList)
    (hd : m'.stack.depth = base.length) : m'.pc = a ∧ m'.stack.toList = base := by
  rw [← CallStack.length_toList] at hd
  have hle := hb.length_le
  rw [List.length_append, List.length_singleton] at hle
  cases h with
  | same h => rw [h] at hd; omega
  | push h => rw [h, List.length_append] at hd; omega
  | pop h =>
    rw [h] at hb
    have heq := hb.eq_of_length (by simp [hd])
    obtain ⟨hbase, ha⟩ := List.append_inj' heq rfl
    exact ⟨(List.singleton_inj.mp ha).symm, hbase.symm⟩

end StackMove

/-- A history without a reset keeps the return addresses that the stack has not sunk below. -/
theorem prefix_after {base : List MemoryAddress} (hb : base <+: m.stack.toList) (hes : Event.reset ∉ es)
    (hd : ∀ past, past <+: es → base.length ≤ (m.after past).stack.depth) : base <+: (m.after es).stack.toList := by
  induction es using List.reverseRecOn with
  | nil => exact hb
  | append_singleton es e ih =>
    rw [List.mem_append, not_or, List.mem_singleton] at hes
    have hkept := ih hes.1 fun past hp => hd past (hp.trans (List.prefix_append _ _))
    rw [after_concat]
    refine (stackMove_handle _ (Ne.symm hes.2)).prefix_of_le hkept ?_
    rw [← after_concat]
    exact hd _ (List.prefix_refl _)

/-- While a history without a reset stays above `base`, it keeps `base` and the address on it; the first time it is
back at `base`, it is at that address. -/
theorem return_after {base : List MemoryAddress} (hb : m.stack.toList = base ++ [a]) (hes : Event.reset ∉ es)
    (hd : ∀ past, past <+: es → past ≠ es → base.length < (m.after past).stack.depth)
    (hback : (m.after es).stack.depth = base.length) : (m.after es).pc = a ∧ (m.after es).stack.toList = base := by
  rcases List.eq_nil_or_concat es with rfl | ⟨es, e, rfl⟩
  · rw [after_nil, ← CallStack.length_toList, hb, List.length_append, List.length_singleton] at hback
    omega
  · rw [List.concat_eq_append] at hes hd hback ⊢
    rw [List.mem_append, not_or, List.mem_singleton] at hes
    rw [after_concat] at hback ⊢
    have hkept : base ++ [a] <+: (m.after es).stack.toList := by
      refine prefix_after (hb ▸ List.prefix_refl _) hes.1 fun past hp => ?_
      rw [List.length_append, List.length_singleton]
      refine hd past (hp.trans (List.prefix_append _ _)) fun h => ?_
      have := hp.length_le
      rw [h, List.length_append, List.length_singleton] at this
      omega
    exact (stackMove_handle _ (Ne.symm hes.2)).return_of_depth hkept hback

/-- A call completes and pushes the address behind it. As long as no reset comes and the stack stays deeper than it
was before the call, it holds that address on top of the older ones; the first time it is as deep as before, the
machine goes on behind the call with the older return addresses on the stack. -/
theorem call_matches_return (m : Machine) (i : Instruction) (hi : m.fetched = some i) (hop : i.op = .call)
    (hd : m.stack.depth < 16) :
    ∃ called, m.step = .ok (some i) called ∧ ∀ es, Event.reset ∉ es →
      ((∀ past, past <+: es → m.stack.depth < (called.after past).stack.depth) →
        (called.after es).stack.toList.take (m.stack.depth + 1) = m.stack.toList ++ [m.pc + 2]) ∧
      ((∀ past, past <+: es → past ≠ es → m.stack.depth < (called.after past).stack.depth) →
        (called.after es).stack.depth = m.stack.depth →
          (called.after es).pc = m.pc + 2 ∧ (called.after es).stack.toList = m.stack.toList) := by
  have hs := (Step.executed hi (.call hop hd)).step
  refine ⟨_, hs, fun es hes => ?_⟩
  generalize hcalled : countStep (some i.op) _ = called
  have hb : called.stack.toList = m.stack.toList ++ [m.pc + 2] :=
    hcalled ▸ m.stack.toList_pushed (m.pc + 2) hd
  have hlen := m.stack.length_toList
  refine ⟨fun habove => ?_, fun habove hback => ?_⟩
  · have hkept : m.stack.toList ++ [m.pc + 2] <+: (called.after es).stack.toList :=
      prefix_after (hb ▸ List.prefix_refl _) hes fun past hp => by
        rw [List.length_append, List.length_singleton, hlen]
        exact habove past hp
    rw [List.prefix_iff_eq_take.mp hkept, List.length_append, List.length_singleton, hlen]
  · exact return_after hb hes (by rwa [hlen]) (hback.trans hlen.symm)

/-- A call at 0 of a routine at 4, which calls another one at 8. -/
def nestedCalls : Machine :=
  { blank .released (.ofScript #[]) with
    memory := Memory.blank.writeBlock 0 [0x20, 0x04, 0x00, 0x00, 0x20, 0x08, 0x00, 0xEE, 0x00, 0xEE]
    pc := 0 }

/-- The outer call of `nestedCalls` returns after the inner one, with a tick and a key press in between. -/
theorem call_matches_return_nested :
    let i : Instruction := { op := .call, word := 0x2004, addr := 0x004 }
    let es : List Event := [.tick, .step, .press 3, .step, .step]
    nestedCalls.fetched = some i ∧ nestedCalls.stack.depth < 16 ∧ Event.reset ∉ es ∧
      ∃ called, nestedCalls.step = .ok (some i) called ∧
        (called.after es).pc = 0x002 ∧ (called.after es).stack.toList = [] := by
  intro i es
  have hi : nestedCalls.fetched = some i := by decide +kernel
  have hd : nestedCalls.stack.depth < 16 := by decide
  have hes : Event.reset ∉ es := by decide
  obtain ⟨called, hstep, h⟩ := call_matches_return nestedCalls i hi rfl hd
  obtain rfl : nestedCalls.stepped = called := by simp only [stepped, hstep]
  have habove : ∀ past ∈ es.inits, past ≠ es → 0 < (nestedCalls.stepped.after past).stack.depth := by decide +kernel
  have hback : (nestedCalls.stepped.after es).stack.depth = 0 := by decide +kernel
  exact ⟨hi, hd, hes, _, hstep, (h es hes).2 (fun past hp => habove past ((List.mem_inits _ _).mpr hp)) hback⟩

end Chip8.Machine

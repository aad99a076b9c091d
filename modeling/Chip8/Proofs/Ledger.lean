import Chip8.Proofs.Footprint
import Chip8.Proofs.HeadlessReport
import Chip8.Proofs.Requests
import Mathlib.Data.List.Nodup

/-! # The ledger of completed steps

What a machine counts are the steps that it completed since its last reset. `Ledger base begun now` ties every
counter of `now` to one list, that of the machines at which these steps began. A completed step is entered
(`Ledger.enter`), and nothing else is: not a step that fails, a tick, a program that is loaded or a key. -/

namespace Chip8

/-! ### Tallies -/

namespace Tally
variable {ks : List (Option Op)}

/-- The tally of a list, counted from its front. -/
def ofKeys (ks : List (Option Op)) : Tally := ks.foldl bump empty

theorem ofKeys_concat (ks : List (Option Op)) (k : Option Op) : ofKeys (ks ++ [k]) = (ofKeys ks).bump k :=
  List.foldl_append

theorem count_ofKeys (ks : List (Option Op)) (k : Option Op) : (ofKeys ks).count k = ks.count k := by
  induction ks using List.reverseRecOn with
  | nil => rfl
  | append_singleton ks j ih =>
    rw [ofKeys_concat, count_bump, ih, List.count_append, List.count_singleton]
    simp only [beq_iff_eq]

theorem total_ofKeys (ks : List (Option Op)) : (ofKeys ks).total = ks.length := by
  induction ks using List.reverseRecOn with
  | nil => rfl
  | append_singleton ks k ih => rw [ofKeys_concat, total_bump, ih, List.length_append, List.length_singleton]

theorem pos_ofKeys (ks : List (Option Op)) : ∀ e ∈ (ofKeys ks).entries, 0 < e.2 := by
  induction ks using List.reverseRecOn with
  | nil => exact fun e he => absurd he List.not_mem_nil
  | append_singleton ks k ih =>
    rw [ofKeys_concat]
    exact pos_bump ih k

theorem nodup_keys_ofKeys (ks : List (Option Op)) : ((ofKeys ks).entries.map Prod.fst).Nodup := by
  induction ks using List.reverseRecOn with
  | nil => exact List.nodup_nil
  | append_singleton ks k ih =>
    rw [ofKeys_concat, keys_bump]
    by_cases hk : k ∈ (ofKeys ks).entries.map Prod.fst
    · rw [if_pos hk]
      exact ih
    · rw [if_neg hk]
      rw [← List.concat_eq_append]
      exact List.Nodup.concat hk ih

theorem mem_of_mem_keys_ofKeys {k : Option Op} (h : k ∈ (ofKeys ks).entries.map Prod.fst) : k ∈ ks := by
  induction ks using List.reverseRecOn with
  | nil => exact h
  | append_singleton ks j ih =>
    rw [ofKeys_concat, keys_bump] at h
    split at h
    · exact List.mem_append_left _ (ih h)
    · rcases List.mem_append.mp h with h | h
      · exact List.mem_append_left _ (ih h)
      · exact List.mem_append_right _ h

end Tally

/-! ### What a host does -/

/-- What a host does to a machine: one event, or a run. -/
inductive Command
  | event (e : Event)
  | run (maxCycles cyclesPerTick : Int)
deriving DecidableEq

namespace Machine
variable {i : Instruction} {m m' : Machine} {r : Option Instruction} {f : Fault}

/-- The machine after a command, whether it completed or failed. -/
def obey (m : Machine) : Command → Machine
  | .event e => m.handle e
  | .run maxCycles cyclesPerTick => leaves (run maxCycles cyclesPerTick) m

def obeyed (m : Machine) (cs : List Command) : Machine := cs.foldl obey m

/-- The events of a run: its steps and their ticks, up to a step that fails. -/
def runEvents (k : Int) (made : Nat) (m : Machine) : Nat → List Event
  | 0 => []
  | left + 1 =>
    match m.step with
    | .error _ _ => [.step]
    | .ok _ m' =>
      let ticks := if TickDue k (made + 1) then [.tick] else []
      .step :: ticks ++ runEvents k (made + 1) (m'.after ticks) left

def eventsOf (m : Machine) : Command → List Event
  | .event e => [e]
  | .run maxCycles cyclesPerTick => runEvents cyclesPerTick 0 m maxCycles.toNat

/-- The events of commands, each as the machine finds it that the commands before have left. -/
def history (m : Machine) : List Command → List Event
  | [] => []
  | c :: cs => m.eventsOf c ++ (m.obey c).history cs

theorem runEvents_of_ok (k : Int) (made left : Nat) (h : m.step = .ok r m') : runEvents k made m (left + 1) =
    .step :: (if TickDue k (made + 1) then [.tick] else []) ++
      runEvents k (made + 1) (m'.after (if TickDue k (made + 1) then [.tick] else [])) left := by
  simp only [runEvents, h]

theorem runEvents_of_error (k : Int) (made left : Nat) (h : m.step = .error f m') :
    runEvents k made m (left + 1) = [.step] := by
  simp only [runEvents, h]

theorem after_runEvents (k : Int) (made : Nat) (m : Machine) (left : Nat) :
    m.after (runEvents k made m left) = leaves (runFrom k made left) m := by
  induction left generalizing made m with
  | zero => rfl
  | succ left ih =>
    rw [runFrom_succ]
    cases hs : m.step with
    | error f m' =>
      have hstep : m.handle .step = m' := by simp only [handle, stepped, hs]
      rw [runEvents_of_error k made left hs, leaves_of_error (bind_of_error hs)]
      exact hstep
    | ok r m' =>
      have hstep : m.handle .step = m' := by simp only [handle, stepped, hs]
      have hrest := ih (made + 1) (m'.after (if TickDue k (made + 1) then [.tick] else []))
      rw [runEvents_of_ok k made left hs, leaves, bind_of_ok hs, bind_of_ok (tickIfDue_eq k (made + 1) m'), ← leaves,
        ← hrest, ← hstep]
      simp only [after, List.cons_append, List.foldl_cons, List.foldl_append]

theorem reset_not_mem_runEvents (k : Int) (made : Nat) (m : Machine) (left : Nat) :
    Event.reset ∉ runEvents k made m left := by
  induction left generalizing made m with
  | zero => exact List.not_mem_nil
  | succ left ih =>
    cases hs : m.step with
    | error f m' =>
      rw [runEvents_of_error k made left hs]
      decide
    | ok r m' =>
      rw [runEvents_of_ok k made left hs, List.mem_append, not_or]
      refine ⟨?_, ih _ _⟩
      split
      · decide
      · decide

theorem after_eventsOf (m : Machine) (c : Command) : m.after (m.eventsOf c) = m.obey c := by
  cases c with
  | event e => rfl
  | run n k => exact after_runEvents k 0 m n.toNat

/-- Commands do what their events do. -/
theorem after_history (m : Machine) (cs : List Command) : m.after (m.history cs) = m.obeyed cs := by
  induction cs generalizing m with
  | nil => rfl
  | cons c cs ih =>
    rw [history, after_append, after_eventsOf, ih]
    rfl

theorem reset_not_mem_history {cs : List Command} (h : .event .reset ∉ cs) (m : Machine) :
    Event.reset ∉ m.history cs := by
  induction cs generalizing m with
  | nil => exact List.not_mem_nil
  | cons c cs ih =>
    rw [List.mem_cons, not_or] at h
    rw [history, List.mem_append, not_or]
    refine ⟨fun hc => ?_, ih h.2 _⟩
    cases c with
    | event e => exact h.1 (congrArg Command.event (List.mem_singleton.mp hc))
    | run n k => exact reset_not_mem_runEvents k 0 m n.toNat hc

/-! ### The ledger of completed steps -/

/-- What the next step is counted under: its operation, or none for a word that is no instruction. -/
def kind (m : Machine) : Option Op := m.fetched.map (·.op)

theorem kind_of_none (h : m.fetched = none) : m.kind = none := by
  rw [kind, h]
  rfl

theorem kind_of_some (h : m.fetched = some i) : m.kind = some i.op := by
  rw [kind, h]
  rfl

/-- The machine at which the completed step of an event begins, if it is one. -/
def begins (m : Machine) (e : Event) : List Machine :=
  match e, m.step with
  | .step, .ok _ _ => [m]
  | _, _ => []

/-- The machines at which the completed steps of a history begin. -/
def beginnings (m : Machine) : List Event → List Machine
  | [] => []
  | e :: es => m.begins e ++ (m.handle e).beginnings es

theorem beginnings_concat (m : Machine) (es : List Event) (e : Event) :
    m.beginnings (es ++ [e]) = m.beginnings es ++ (m.after es).begins e := by
  induction es generalizing m with
  | nil => simp only [List.nil_append, beginnings, List.append_nil, after_nil]
  | cons e' es ih =>
    rw [List.cons_append, beginnings, beginnings, ih, List.append_assoc]
    rfl

end Machine

/-- The word that a notice is about, if it is about one that is no instruction. -/
def Notice.skipped? : Notice → Option Unrecognized
  | unrecognized u => some u
  | truncated _ _ => none

namespace Machine
variable {i : Instruction} {m m' base : Machine} {a : MemoryAddress} {e : Event} {es : List Event} {begun : List Machine}
  {r : Option Instruction}

/-- The words that steps skipped, of those that began at the machines. -/
def skippedAt (begun : List Machine) : List Unrecognized := begun.filterMap unrecognizedHere

/-- What `now` has counted since `base` are the completed steps that began at the machines `begun`. -/
structure Ledger (base : Machine) (begun : List Machine) (now : Machine) : Prop where
  stats : now.stats = .ofKeys (begun.map kind)
  cycles : now.cycles = begun.length
  unrecognized : now.unrecognized = (skippedAt begun).length
  last : now.lastUnrecognized = (skippedAt begun).getLast?
  notices : ∃ told, now.notices.toList = base.notices.toList ++ told ∧ told.filterMap Notice.skipped? = skippedAt begun
  depth : now.stack.depth + (begun.map kind).count (some .ret) = (begun.map kind).count (some .call)
  draws : now.random.bounds.toList =
    base.random.bounds.toList ++ List.replicate ((begun.map kind).count (some .rnd)) (0, 256)

theorem Effect.stats (h : Effect i m a m') : m'.stats = m.stats := by
  cases h <;> rfl

theorem Effect.random_eq (h : Effect i m a m') (hop : i.op ≠ .rnd) : m'.random = m.random := by
  cases h with
  | rnd h => exact absurd h hop
  | _ => rfl

theorem Effect.of_call (h : Effect i m a m') (hop : i.op = .call) :
    ∃ hd, m' = { m with stack := m.stack.pushed (m.pc + 2) hd } := by
  rcases Nat.lt_or_eq_of_le m.stack.depth_le with hd | hd
  · exact ⟨hd, (h.unique (.call hop hd)).2.symm⟩
  · have herror := (Refusal.full hop hd).execute
    rw [h.execute] at herror
    cases herror

theorem Effect.of_ret (h : Effect i m a m') (hop : i.op = .ret) :
    ∃ hd, m' = { m with stack := m.stack.popped hd } := by
  rcases Nat.eq_zero_or_pos m.stack.depth with hd | hd
  · have herror := (Refusal.empty hop hd).execute
    rw [h.execute] at herror
    cases herror
  · exact ⟨hd, (h.unique (.ret hop hd)).2.symm⟩

/-- The stack gets deeper by a call, and less deep by a return. -/
theorem Effect.depth (h : Effect i m a m') :
    m'.stack.depth + [some i.op].count (some .ret) = m.stack.depth + [some i.op].count (some .call) := by
  by_cases hcall : i.op = .call
  · obtain ⟨hd, rfl⟩ := h.of_call hcall
    rw [hcall]
    rfl
  by_cases hret : i.op = .ret
  · obtain ⟨hd, rfl⟩ := h.of_ret hret
    rw [hret]
    exact Nat.sub_add_cancel hd
  · rw [h.stack_eq (by simp [hcall, hret])]
    simp [hcall, hret]

/-- A random instruction asks for one number below 256, and no other instruction for any. -/
theorem Effect.draws (h : Effect i m a m') :
    m'.random.bounds.toList = m.random.bounds.toList ++ List.replicate ([some i.op].count (some .rnd)) (0, 256) := by
  by_cases hop : i.op = .rnd
  · obtain ⟨-, rfl⟩ := h.unique (.rnd hop)
    rw [hop]
    exact Array.toList_push
  · rw [h.random_eq hop]
    simp [hop]

theorem skippedAt_concat (begun : List Machine) (m : Machine) :
    skippedAt (begun ++ [m]) = skippedAt begun ++ m.unrecognizedHere.toList := by
  rw [skippedAt, skippedAt, List.filterMap_append]
  cases h : m.unrecognizedHere <;> simp [h]

theorem map_kind_concat (begun : List Machine) (m : Machine) : (begun ++ [m]).map kind = begun.map kind ++ [m.kind] :=
  List.map_append

/-- What a completed step from `m` to `m'` counts. -/
structure Entry (m m' : Machine) : Prop where
  told : m.Told m.unrecognizedHere.toList 1 m'
  stats : m'.stats = m.stats.bump m.kind
  depth : m'.stack.depth + [m.kind].count (some .ret) = m.stack.depth + [m.kind].count (some .call)
  draws : m'.random.bounds.toList =
    m.random.bounds.toList ++ List.replicate ([m.kind].count (some .rnd)) (0, 256)

theorem Step.entry (h : Step m r m') : Entry m m' := by
  have htold := (told_self m).step h
  cases h with
  | unrecognized hf =>
    have hkind := kind_of_none hf
    refine ⟨htold, ?_, ?_, ?_⟩
    · rw [hkind]; rfl
    · rw [hkind]; rfl
    · rw [hkind]; exact (List.append_nil _).symm
  | @executed i a m₁ hf he =>
    have hkind := kind_of_some hf
    refine ⟨htold, ?_, ?_, ?_⟩
    · rw [hkind, ← he.stats]; rfl
    · rw [hkind]; exact he.depth
    · rw [hkind]; exact he.draws

/-- A completed step is entered. -/
theorem Ledger.enter (h : Ledger base begun m) (he : Entry m m') : Ledger base (begun ++ [m]) m' := by
  have hkinds := map_kind_concat begun m
  have hskips := skippedAt_concat begun m
  obtain ⟨told, htold, hskipped⟩ := h.notices
  refine ⟨?_, ?_, ?_, ?_, ⟨told ++ m.unrecognizedHere.toList.map .unrecognized, ?_, ?_⟩, ?_, ?_⟩
  · rw [he.stats, h.stats, hkinds, Tally.ofKeys_concat]
  · rw [he.told.cycles, h.cycles, List.length_append, List.length_singleton]
  · rw [he.told.unrecognized, h.unrecognized, hskips, List.length_append]
  · rw [he.told.last, h.last, hskips, List.getLast?_append]
  · rw [he.told.notices, htold, List.append_assoc]
  · rw [List.filterMap_append, hskipped, hskips]
    cases m.unrecognizedHere <;> rfl
  · have hbefore := h.depth
    have hstep := he.depth
    rw [hkinds, List.count_append, List.count_append]
    omega
  · rw [he.draws, h.draws, hkinds, List.count_append, List.append_assoc, List.replicate_append_replicate]

/-- A program that does not fit is told of, and that is no step. -/
theorem Ledger.load (h : Ledger base begun m) (rom : List UInt8) : Ledger base begun (m.load rom).2 := by
  obtain ⟨told, htold, hskipped⟩ := h.notices
  by_cases hcut : (rom.take programSpace).length < rom.length
  · simp only [Machine.load, hcut, ↓reduceIte, notify]
    refine ⟨h.stats, h.cycles, h.unrecognized, h.last,
      ⟨told ++ [.truncated (rom.take programSpace).length rom.length], ?_, ?_⟩, h.depth, h.draws⟩
    · rw [Array.toList_push, htold, List.append_assoc]
    · rw [List.filterMap_append, hskipped]
      exact List.append_nil _
  · simp only [Machine.load, hcut, ↓reduceIte]
    exact ⟨h.stats, h.cycles, h.unrecognized, h.last, ⟨told, htold, hskipped⟩, h.depth, h.draws⟩

theorem Ledger.handle (h : Ledger base begun m) (he : e ≠ .reset) : Ledger base (begun ++ m.begins e) (m.handle e) := by
  have hquiet (hnone : m.begins e = []) (hl : Ledger base begun (m.handle e)) :
      Ledger base (begun ++ m.begins e) (m.handle e) := by
    rw [hnone, List.append_nil]
    exact hl
  cases e with
  | step =>
    rcases step_or_refusal m with ⟨r, m', hs⟩ | ⟨i, f, hi, hf⟩
    · have hbegins : m.begins .step = [m] := by simp only [begins, hs.step]
      rw [hbegins, Machine.handle, hs.stepped]
      exact h.enter hs.entry
    · -- A step that fails is entered nowhere.
      have hstep := step_of_refusal hi hf
      have hbegins : m.begins .step = [] := by simp only [begins, hstep]
      have hstays : m.handle .step = m := by simp only [Machine.handle, stepped, hstep]
      rw [hbegins, hstays, List.append_nil]
      exact h
  | load rom => exact hquiet rfl (h.load rom)
  | reset => exact absurd rfl he
  | _ => exact hquiet rfl ⟨h.stats, h.cycles, h.unrecognized, h.last, h.notices, h.depth, h.draws⟩

/-- The ledger of a machine that was reset has no entry. -/
theorem ledger_reset (m : Machine) : Ledger m.reset [] m.reset where
  stats := rfl
  cycles := rfl
  unrecognized := rfl
  last := rfl
  notices := ⟨[], (List.append_nil _).symm, rfl⟩
  depth := rfl
  draws := (List.append_nil _).symm

/-- Events enter the steps that they complete, up to the next reset. -/
theorem ledger_after (h : Ledger base [] base) (hes : Event.reset ∉ es) :
    Ledger base (base.beginnings es) (base.after es) := by
  induction es using List.reverseRecOn with
  | nil => exact h
  | append_singleton es e ih =>
    rw [List.mem_append, not_or, List.mem_singleton] at hes
    rw [beginnings_concat, after_concat]
    exact (ih hes.1).handle (Ne.symm hes.2)

end Machine
end Chip8

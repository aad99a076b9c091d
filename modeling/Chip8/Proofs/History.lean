import Chip8.Proofs.Step

/-! # Histories

What a host does to a machine, event after event. A step that fails is an event too: it leaves the machine as it was.
`Since P Q m es` looks back over a history: some event was a `P`, and none after it a `Q`. `Throughout P m es` says that
every event was a `P`. -/

namespace Chip8

inductive Event
  | load (rom : List UInt8)
  | step
  | tick
  | reset
  | press (key : Int)
  | release (key : Int)
  | releaseAll
deriving DecidableEq

namespace Machine
variable {m m' : Machine} {e : Event} {es : List Event}

/-- The machine after a step, whether it completed or failed. -/
def stepped (m : Machine) : Machine :=
  match m.step with
  | .ok _ m' => m'
  | .error _ m' => m'

/-- The machine after an event. -/
def handle (m : Machine) : Event → Machine
  | .load rom => (m.load rom).2
  | .step => m.stepped
  | .tick => m.tick.2
  | .reset => m.reset
  | .press key => { m with keypad := m.keypad.press key }
  | .release key => { m with keypad := m.keypad.release key }
  | .releaseAll => { m with keypad := .released }

/-- The machine after a history. -/
def after (m : Machine) (es : List Event) : Machine := es.foldl handle m

@[simp] theorem after_nil : m.after [] = m := rfl

theorem after_append (es' : List Event) : m.after (es ++ es') = (m.after es).after es' :=
  List.foldl_append

@[simp] theorem after_concat : m.after (es ++ [e]) = (m.after es).handle e := after_append [e]

theorem Step.stepped {r : Option Instruction} (h : Step m r m') : m.stepped = m' := by
  simp only [Machine.stepped, h.step]

/-- A step fails and leaves the machine as it was, or skips a word, or has the effect of an instruction. -/
@[elab_as_elim]
theorem stepped_cases {motive : Machine → Prop} (m : Machine) (failed : motive m)
    (unrecognized : m.fetched = none →
      motive (countStep none (skipUnrecognized (m.memory.readWord m.pc) m)))
    (executed : ∀ i a m', m.fetched = some i → Effect i m a m' →
      motive (countStep (some i.op) { m' with pc := a })) : motive m.stepped := by
  rcases step_or_refusal m with ⟨r, m', h⟩ | ⟨i, f, hi, hf⟩
  · rw [h.stepped]
    cases h with
    | unrecognized h => exact unrecognized h
    | executed h he => exact executed _ _ _ h he
  · rw [stepped, step_of_refusal hi hf]
    exact failed

/-- Some event of a history from `m` was a `P`, and none after it a `Q`. -/
def Since (P Q : Machine → Event → Prop) (m : Machine) (es : List Event) : Prop :=
  ∃ past e later, es = past ++ e :: later ∧ P (m.after past) e ∧
    ∀ mid e' rest, later = mid ++ e' :: rest → ¬ Q (m.after (past ++ e :: mid)) e'

variable {P Q : Machine → Event → Prop}

theorem since_nil : ¬ Since P Q m [] := by
  rintro ⟨past, e, later, h, -⟩
  simp at h

theorem since_concat : Since P Q m (es ++ [e]) ↔ P (m.after es) e ∨ ¬ Q (m.after es) e ∧ Since P Q m es := by
  constructor
  · rintro ⟨past, e₀, later, heq, hP, hQ⟩
    rcases List.eq_nil_or_concat later with rfl | ⟨later, e₁, rfl⟩
    · obtain ⟨rfl, h⟩ := List.append_inj' heq rfl
      cases h
      exact .inl hP
    · rw [List.concat_eq_append] at heq hQ
      rw [← List.cons_append, ← List.append_assoc] at heq
      obtain ⟨rfl, h⟩ := List.append_inj' heq rfl
      cases h
      refine .inr ⟨hQ later e [] rfl, past, e₀, later, rfl, hP, fun mid e' rest hl => ?_⟩
      exact hQ mid e' (rest ++ [e]) (by rw [hl, List.append_assoc, List.cons_append])
  · rintro (hP | ⟨hQ, past, e₀, later, rfl, hP, hlater⟩)
    · exact ⟨es, e, [], rfl, hP, fun mid e' rest h => absurd h (by simp)⟩
    · refine ⟨past, e₀, later ++ [e], by simp, hP, fun mid e' rest hl => ?_⟩
      rcases List.eq_nil_or_concat rest with rfl | ⟨rest, e₁, rfl⟩
      · obtain ⟨rfl, h⟩ := List.append_inj' hl rfl
        cases h
        exact hQ
      · rw [List.concat_eq_append, ← List.cons_append, ← List.append_assoc] at hl
        exact hlater mid e' rest (List.append_inj' hl rfl).1

/-- Every event of a history from `m` is a `P`. -/
def Throughout (P : Machine → Event → Prop) : Machine → List Event → Prop
  | _, [] => True
  | m, e :: es => P m e ∧ Throughout P (m.handle e) es

instance decidableThroughout [∀ m e, Decidable (P m e)] :
    (m : Machine) → (es : List Event) → Decidable (Throughout P m es)
  | _, [] => inferInstanceAs (Decidable True)
  | m, e :: es =>
    have := decidableThroughout (m.handle e) es
    inferInstanceAs (Decidable (_ ∧ _))

theorem throughout_concat : Throughout P m (es ++ [e]) ↔ Throughout P m es ∧ P (m.after es) e := by
  induction es generalizing m with
  | nil => simp [Throughout]
  | cons e' es ih =>
    rw [List.cons_append, Throughout, Throughout, ih, and_assoc]
    rfl

end Machine
end Chip8

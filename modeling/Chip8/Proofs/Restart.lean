import Chip8.Proofs.Requests
import Chip8.Proofs.Step

/-! # Starting over

The log so far and the numbers drawn so far have no influence on what a machine does: every request is met in the same way with
an older log and older draws in front (`Oblivious`). Besides these, a reset leaves nothing of a machine but its keys and the
numbers still to come; so a machine that was reset is a new one with a past in front (`reset_eq_onto`). -/

namespace Chip8

namespace RandomSource
variable {r past : RandomSource}

/-- The numbers that are still to come, with no draw recorded. -/
def rest (r : RandomSource) : RandomSource := ⟨fun n => r.value (r.position + n), #[]⟩

/-- The draws of `r` after those of `past`. -/
def onto (r past : RandomSource) : RandomSource := ⟨past.value, past.bounds ++ r.bounds⟩

/-- The source gives the numbers that `past` had still to give. -/
def Continues (r past : RandomSource) : Prop := r.value = past.rest.value

theorem rest_onto (r : RandomSource) : r.rest.onto r = r := by
  simp only [rest, onto, Array.append_empty]

theorem draw_onto (h : r.Continues past) (low high : Nat) :
    (r.onto past).draw low high = ((r.draw low high).1, (r.draw low high).2.onto past) := by
  have hvalue : (r.onto past).value (r.onto past).position = r.value r.position := by
    rw [h]
    simp only [rest, onto, position, Array.size_append]
  have hbounds : (r.onto past).bounds.push (low, high) = past.bounds ++ r.bounds.push (low, high) :=
    Array.append_push.symm
  simp only [draw, hvalue, hbounds]
  rfl

end RandomSource

namespace Machine
variable {α β : Type} {act : Action α} {i : Instruction} {m m' past : Machine} {a : MemoryAddress} {f : Fault}

/-- The machine with the log and the draws of `past` in front of its own. -/
def onto (m past : Machine) : Machine :=
  { m with random := m.random.onto past.random, notices := past.notices ++ m.notices }

/-- The machine draws the numbers that `past` had still to draw. -/
def Continues (m past : Machine) : Prop := m.random.Continues past.random

/-! ### Instructions and steps -/

theorem skips_onto {b : Bool} (h : skips i m = .ok b m) : skips i (m.onto past) = .ok b (m.onto past) := by
  obtain ⟨op, word, x, y, addr, byte, nibble⟩ := i
  cases op <;> cases h <;> rfl

theorem Effect.onto (h : Effect i m a m') (hc : m.Continues past) : Effect i (m.onto past) a (m'.onto past) := by
  cases h with
  | rnd hop =>
    -- The one instruction that looks at the past, and only for how many numbers were drawn.
    have hdraw := RandomSource.draw_onto hc 0 256
    have hbyte : randomByte i (m.onto past) = randomByte i m := by
      rw [randomByte, randomByte, show (m.onto past).random.draw 0 256 = _ from hdraw]
    have he := Effect.rnd (i := i) (m := m.onto past) hop
    rw [show (m.onto past).random.draw 0 256 = _ from hdraw, hbyte] at he
    exact he
  | skip hop hb => exact .skip hop (skips_onto hb)
  | alu hop hr => exact .alu hop hr
  | call hop hd => exact .call (m := m.onto past) hop hd
  | ret hop hd => exact .ret (m := m.onto past) hop hd
  | ldi hop => exact .ldi hop
  | addi hop => exact .addi hop
  | ldfi hop => exact .ldfi hop
  | store hop => exact .store hop
  | load hop => exact .load hop
  | lddt hop => exact .lddt hop
  | setdt hop => exact .setdt hop
  | setst hop => exact .setst hop
  | jp hop => exact .jp hop
  | jpv0 hop => exact .jpv0 hop
  | cls hop => exact .cls hop
  | drw hop => exact .drw hop
  | keyTaken hop hk => exact .keyTaken hop hk
  | keyAwaited hop hk => exact .keyAwaited hop hk
  | sys hop => exact .sys hop

theorem Effect.continues (h : Effect i m a m') (hc : m.Continues past) : m'.Continues past := by
  cases h <;> exact (show m.random.Continues past.random from hc)

theorem Refusal.onto (h : Refusal i m f) (past : Machine) : Refusal i (m.onto past) f := by
  cases h with
  | full hop hd => exact .full hop hd
  | empty hop hd => exact .empty hop hd
  | unknown hop => exact .unknown hop

theorem Step.onto {r : Option Instruction} (h : Step m r m') (hc : m.Continues past) :
    Step (m.onto past) r (m'.onto past) ∧ m'.Continues past := by
  cases h with
  | unrecognized h =>
    have hs := Step.unrecognized (m := m.onto past) h
    have hnotices (n : Notice) : (past.notices ++ m.notices).push n = past.notices ++ m.notices.push n :=
      Array.append_push.symm
    refine ⟨?_, hc⟩
    simp only [skipUnrecognized, Machine.onto, hnotices] at hs
    exact hs
  | executed h he => exact ⟨.executed (m := m.onto past) h (he.onto hc), he.continues hc⟩

/-! ### Requests -/

/-- The result of an action with `past` in front. -/
def resultOnto (past : Machine) : EStateM.Result Fault Machine α → EStateM.Result Fault Machine α
  | .ok a m => .ok a (m.onto past)
  | .error f m => .error f (m.onto past)

/-- The action does the same with any past in front, and does not lose it. -/
def Oblivious (act : Action α) : Prop :=
  ∀ m past, m.Continues past → act (m.onto past) = resultOnto past (act m) ∧ (leaves act m).Continues past

namespace Oblivious

theorem pure (a : α) : Oblivious (pure a : Action α) := fun _ _ hc => ⟨rfl, hc⟩

theorem throw (f : Fault) : Oblivious (throw f : Action α) := fun _ _ hc => ⟨rfl, hc⟩

theorem bind {x : Action α} {g : α → Action β} (hx : Oblivious x) (hg : ∀ a, Oblivious (g a)) : Oblivious (x >>= g) := by
  intro m past hc
  obtain ⟨heq, hleft⟩ := hx m past hc
  cases h : x m with
  | ok a m₁ =>
    rw [h] at heq
    rw [leaves_of_ok h] at hleft
    have hleaves : leaves (x >>= g) m = leaves (g a) m₁ := by rw [leaves, bind_of_ok h, leaves]
    rw [bind_of_ok heq, bind_of_ok h, hleaves]
    exact hg a m₁ past hleft
  | error f m₁ =>
    rw [h] at heq
    rw [leaves_of_error h] at hleft
    rw [bind_of_error heq, bind_of_error h, leaves_of_error (bind_of_error h)]
    exact ⟨rfl, hleft⟩

theorem map {x : Action α} (hx : Oblivious x) (g : α → β) : Oblivious (g <$> x) := by
  rw [← bind_pure_comp]
  exact hx.bind fun _ => .pure _

theorem withOperand {v : Except OperandError α} {go : α → Action β} (h : ∀ a, Oblivious (go a)) :
    Oblivious (withOperand v go) := by
  cases v with
  | ok a => exact h a
  | error e => exact .throw _

theorem execute (i : Instruction) : Oblivious (execute i) := by
  intro m past hc
  rcases effect_or_refusal i m with ⟨a, m', he⟩ | ⟨f, hf⟩
  · rw [(he.onto hc).execute, he.execute, leaves_of_ok he.execute]
    exact ⟨rfl, he.continues hc⟩
  · rw [(hf.onto past).execute, hf.execute, leaves_of_error hf.execute]
    exact ⟨rfl, hc⟩

theorem step : Oblivious step := by
  intro m past hc
  rcases step_or_refusal m with ⟨r, m', h⟩ | ⟨i, f, hi, hf⟩
  · obtain ⟨hs, hc'⟩ := h.onto hc
    rw [hs.step, h.step, leaves_of_ok h.step]
    exact ⟨rfl, hc'⟩
  · have hstep := step_of_refusal hi hf
    rw [step_of_refusal (m := m.onto past) hi (hf.onto past), hstep, leaves_of_error hstep]
    exact ⟨rfl, hc⟩

theorem run (maxCycles cyclesPerTick : Int) : Oblivious (run maxCycles cyclesPerTick) :=
  run_of_closed pure bind step (fun _ _ hc => ⟨rfl, hc⟩) maxCycles cyclesPerTick

theorem load (rom : List UInt8) : Oblivious (Request.load rom).perform := by
  intro m past hc
  have hnotices (n : Notice) : (past.notices ++ m.notices).push n = past.notices ++ m.notices.push n :=
    Array.append_push.symm
  by_cases h : (rom.take programSpace).length < rom.length
  · simp only [Request.perform, Machine.load, h, ↓reduceIte, leaves, resultOnto, notify, onto, hnotices, true_and]
    exact hc
  · simp only [Request.perform, Machine.load, h, ↓reduceIte, leaves, resultOnto, onto, true_and]
    exact hc

theorem onStack (act : EStateM Fault CallStack α) : Oblivious (onStack act) := by
  intro m past hc
  cases h : act m.stack <;> simp only [Machine.onStack, Machine.onto, leaves, resultOnto, h, true_and] <;> exact hc

theorem onScreen (act : EStateM Fault Screen α) : Oblivious (onScreen act) := by
  intro m past hc
  cases h : act m.screen <;> simp only [Machine.onScreen, Machine.onto, leaves, resultOnto, h, true_and] <;> exact hc

theorem reset : Oblivious Request.reset.perform := by
  intro m past hc
  simp only [Request.perform, change, leaves, resultOnto, Machine.onto, Machine.reset, true_and]
  exact (show m.random.Continues past.random from hc)

theorem perform (q : Request) : Oblivious q.perform := by
  cases q with
  | load rom => exact load rom
  | step => exact step.map _
  | run n k => exact (run n k).map _
  | execute i => exact (execute i).map _
  | push v => exact (onStack _).map _
  | pop => exact (onStack _).map _
  | blit rows x y => exact (onScreen _).map _
  | reset => exact reset
  | jump | write | writeBlock | setRegister | setIndex => exact .withOperand fun _ _ _ hc => ⟨rfl, hc⟩
  | _ => exact fun _ _ hc => ⟨rfl, hc⟩

end Oblivious

theorem answer_resultOnto (h : Oblivious act) (hc : m.Continues past) :
    answer act (m.onto past) = answer act m ∧ leaves act (m.onto past) = (leaves act m).onto past := by
  rw [answer, answer, leaves, leaves, (h m past hc).1]
  cases act m <;> exact ⟨rfl, rfl⟩

/-- Requests are met with the past in front as they are without. -/
theorem served_onto (hc : m.Continues past) (qs : List Request) :
    (m.onto past).replies qs = m.replies qs ∧ (m.onto past).served qs = (m.served qs).onto past := by
  induction qs generalizing m with
  | nil => exact ⟨rfl, rfl⟩
  | cons q qs ih =>
    have hq := Oblivious.perform q
    obtain ⟨hanswer, hleaves⟩ := answer_resultOnto hq hc
    obtain ⟨hreplies, hserved⟩ := ih (hq m past hc).2
    constructor
    · rw [replies, replies, hanswer, hleaves, hreplies]
    · rw [served, List.foldl_cons, hleaves]
      exact hserved

/-! ### Resets -/

/-- No request changes the numbers that a machine draws, only how many were drawn. -/
theorem served_value (m : Machine) (qs : List Request) : (m.served qs).random.value = m.random.value := by
  have hkeeps (q : Request) : Keeps (fun m' => m'.random.value = m.random.value) q.perform := by
    intro m' h
    -- A machine continues itself with its draws forgotten.
    have hself : m'.Continues { m' with random := ⟨m'.random.value, #[]⟩ } := by
      simp only [Continues, RandomSource.Continues, RandomSource.rest, RandomSource.position, Array.size_empty, Nat.zero_add]
    have hq := (Oblivious.perform q m' _ hself).2
    simp only [Continues, RandomSource.Continues, RandomSource.rest, RandomSource.position, Array.size_empty,
      Nat.zero_add] at hq
    exact hq.trans h
  exact Keeps.served hkeeps rfl qs

theorem reset_eq_new (m : Machine) : m.reset = { new m.keypad m.random with notices := m.notices } := by
  simp only [new, blank, reset, Screen.clear]

/-- A machine that was reset is a new one, with the past in front. -/
theorem reset_eq_onto (m : Machine) : m.reset = (new m.keypad m.random.rest).onto m := by
  simp only [new, blank, reset, onto, RandomSource.rest_onto, Array.append_empty, Screen.clear]

theorem served_reset (m : Machine) (qs : List Request) :
    m.reset.replies qs = (new m.keypad m.random.rest).replies qs ∧
    m.reset.served qs = ((new m.keypad m.random.rest).served qs).onto m := by
  rw [reset_eq_onto]
  exact served_onto (show (new m.keypad m.random.rest).Continues m from rfl) qs

/-- A reset makes a machine equal to a new one with its keys and its random source; only the log stays. So two machines with any
past, once they have the same keys down and have drawn as many numbers, answer all further requests alike after a reset, and
are left in the same state but for their own past. -/
theorem reset_erases_history (random : RandomSource) (keypad keypad' : Keypad) (past past' : List Request) :
    let m := (new keypad random).served past
    let m' := (new keypad' random).served past'
    m.reset = { new m.keypad m.random with notices := m.notices } ∧
    (m.keypad = m'.keypad → m.random.position = m'.random.position → ∀ qs,
      m.reset.replies qs = m'.reset.replies qs ∧
      ∃ last : Machine, m.reset.served qs = last.onto m ∧ m'.reset.served qs = last.onto m') := by
  intro m m'
  refine ⟨reset_eq_new m, fun hkeys hpos qs => ?_⟩
  have hvalue : m.random.value = m'.random.value :=
    (served_value (new keypad random) past).trans (served_value (new keypad' random) past').symm
  have hrest : m.random.rest = m'.random.rest := by simp only [RandomSource.rest, hvalue, hpos]
  have hfresh : new m.keypad m.random.rest = new m'.keypad m'.random.rest := by rw [hkeys, hrest]
  obtain ⟨hreplies, hserved⟩ := served_reset m qs
  obtain ⟨hreplies', hserved'⟩ := served_reset m' qs
  refine ⟨?_, _, hserved, ?_⟩
  · rw [hreplies, hreplies', hfresh]
  · rw [hserved', hfresh]

/-- One machine has drawn a number and then found its stack empty; the other has drawn one in a run, with a delay and a sprite put
in by hand. Both have the same key down. -/
theorem reset_erases_history_one_draw :
    let past : List Request := [.load [0xC2, 0xFF, 0x00, 0xEE], .run 2 1, .press 3]
    let past' : List Request := [.load [0x62, 0x05, 0xC1, 0x0F], .run 2 1, .setDelay 300, .blit [0x1FF] 0 40, .press 19]
    let m := (new .released (.ofScript #[7, 9])).served past
    let m' := (new .released (.ofScript #[7, 9])).served past'
    let qs : List Request := [.load [0xC0, 0xFF, 0x00, 0xEE], .step, .step]
    m.keypad = m'.keypad ∧ m.random.position = m'.random.position ∧ m.registers.read 2 ≠ m'.registers.read 2 ∧
      m.reset.replies qs = m'.reset.replies qs ∧ (m'.reset.served qs).registers.read 0 = 9 ∧
      ∃ last : Machine, m.reset.served qs = last.onto m ∧ m'.reset.served qs = last.onto m' := by
  intro past past' m m' qs
  have hkeys : m.keypad = m'.keypad := by decide +kernel
  have hpos : m.random.position = m'.random.position := by decide +kernel
  have hregisters : m.registers.read 2 ≠ m'.registers.read 2 := by decide +kernel
  have hdrawn : (m'.reset.served qs).registers.read 0 = 9 := by decide +kernel
  obtain ⟨hreplies, hserved⟩ := (reset_erases_history (.ofScript #[7, 9]) .released .released past past').2 hkeys hpos qs
  exact ⟨hkeys, hpos, hregisters, hreplies, hdrawn, hserved⟩

end Machine
end Chip8

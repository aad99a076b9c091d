import Chip8.Proofs.Bytes
import Chip8.Proofs.Surroundings
import Mathlib.Logic.Function.Iterate

/-! # Waiting for a key

An instruction that asks for a key while none is down raises a flag and is executed again by the next step. As long as no
program is loaded, nothing moves such a machine away from it but a key or a reset; so the flag tells of the last step, and
the steps that wait leave no trace but their count (`waited`). -/

namespace Chip8

theorem Tally.count_iterate_bump (t : Tally) (k k' : Option Op) (n : Nat) :
    ((·.bump k)^[n] t).count k' = t.count k' + if k = k' then n else 0 := by
  induction n with
  | zero => simp
  | succ n ih =>
    rw [Function.iterate_succ_apply', count_bump, ih]
    split <;> omega

namespace Machine
variable {i : Instruction} {m m' : Machine} {e : Event} {es : List Event} {r : Option Instruction} {k : Fin 16}
  {ks : List (Fin 16)}

/-- The event is a step that waits for a key at the instruction `i`. -/
def Waits (i : Instruction) (m : Machine) (e : Event) : Prop :=
  e = .step ∧ m.fetched = some i ∧ i.op = .ldk ∧ m.keypad.pressed = []

/-- The event is a completed step or a reset. -/
def Settles (m : Machine) (e : Event) : Prop := e = .reset ∨ e = .step ∧ ∃ r m', m.step = .ok r m'

/-- The machine after `n` steps that wait for a key. -/
def waited (m : Machine) (n : Nat) : Machine :=
  { m with
    waiting := if n = 0 then m.waiting else true
    cycles := m.cycles + n
    stats := (·.bump (some .ldk))^[n] m.stats }

theorem waited_succ (m : Machine) (n : Nat) : (m.waited n).waited 1 = m.waited (n + 1) := by
  simp only [waited, Function.iterate_succ_apply', Function.iterate_zero, Nat.add_assoc, Nat.succ_ne_zero, ↓reduceIte]
  rfl

theorem Step.of_waits (h : Waits i m .step) : Step m (some i) (m.waited 1) := by
  obtain ⟨-, hi, hop, hk⟩ := h
  have hs := Step.executed hi (.keyAwaited hop hk)
  rw [hop] at hs
  exact hs

/-- The machine after a step that stores a key in the register `x`. -/
def tookKey (m : Machine) (x : RegisterIndex) (b : UInt8) : Machine :=
  { m with
    registers := m.registers.put x b
    pc := m.pc + 2
    waiting := false
    cycles := m.cycles + 1
    stats := m.stats.bump (some .ldk) }

theorem Step.of_key (hi : m.fetched = some i) (hop : i.op = .ldk) (hk : m.keypad.pressed = k :: ks) :
    Step m (some i) (m.tookKey i.x (UInt8.ofInt k.val)) := by
  have hs := Step.executed hi (.keyTaken hop hk)
  rw [hop] at hs
  exact hs

/-! ### The flag -/

/-- A step puts the flag right if it was right before. -/
theorem Step.waiting_iff (h : Step m r m') (hm : m.waiting = true → ∃ i, m.fetched = some i ∧ i.op = .ldk) :
    m'.waiting = true ↔ ∃ i, Waits i m .step := by
  constructor
  · intro hw
    cases h with
    | unrecognized hf =>
      obtain ⟨i, hi, -⟩ := hm hw
      rw [hf] at hi
      cases hi
    | executed hi he =>
      rename_i i a m'
      change m'.waiting = true at hw
      have hop : i.op = .ldk := by
        by_contra hop
        rw [he.waiting_eq hop] at hw
        obtain ⟨j, hj, hop'⟩ := hm hw
        rw [hi] at hj
        cases hj
        exact hop hop'
      cases hk : m.keypad.pressed with
      | nil => exact ⟨i, rfl, hi, hop, hk⟩
      | cons k ks =>
        obtain ⟨-, rfl⟩ := he.unique (.keyTaken hop hk)
        cases hw
  · rintro ⟨i, hw⟩
    have heq := (Step.of_waits hw).step.symm.trans h.step
    cases heq
    rfl

theorem not_settles_of_outside (he : IsOutside e) : ¬ Settles m e := by
  rintro (rfl | ⟨hstep, -⟩)
  · exact he
  · exact he.ne_step hstep

theorem not_waits_of_outside (he : IsOutside e) : ¬ Waits i m e := fun hw => he.ne_step hw.1

theorem not_settles_of_refusal {f : Fault} (h : m.step = .error f m) : ¬ Settles m .step := by
  rintro (heq | ⟨-, r, m', heq⟩)
  · cases heq
  · rw [h] at heq
    cases heq

theorem Waits.settles (h : Waits i m e) : Settles m e := by
  have he := h.1
  subst he
  exact .inr ⟨rfl, _, _, (Step.of_waits h).step⟩

/-- The flag tells whether the machine waits, and the machine is at the instruction at which it waits. -/
structure FlagTells (m : Machine) (waitsAt : Instruction → Prop) : Prop where
  flag : m.waiting = true ↔ ∃ i, waitsAt i
  still : ∀ i, waitsAt i → i.op = .ldk ∧ m.fetched = some i

/-- Every event but a load keeps what the flag tells, with the last completed step in view. -/
theorem FlagTells.handle {w : Instruction → Prop} (h : FlagTells m w) (he : ∀ rom, e ≠ .load rom) :
    FlagTells (m.handle e) fun i => Waits i m e ∨ ¬ Settles m e ∧ w i := by
  have houtside (he : IsOutside e) : FlagTells (m.handle e) fun i => Waits i m e ∨ ¬ Settles m e ∧ w i := by
    obtain ⟨s, hs⟩ := handle_outside he m
    simp only [not_settles_of_outside he, not_waits_of_outside he, not_false_eq_true, true_and, false_or, hs]
    exact ⟨h.flag, h.still⟩
  cases e with
  | load rom => exact absurd rfl (he rom)
  | step =>
    rcases step_or_refusal m with ⟨r, m', hs⟩ | ⟨j, f, hj, hf⟩
    · have hsettles : Settles m .step := .inr ⟨rfl, r, m', hs.step⟩
      simp only [hsettles, not_true_eq_false, false_and, or_false, Machine.handle, hs.stepped]
      refine ⟨hs.waiting_iff fun hw => ?_, fun i hw => ⟨hw.2.2.1, ?_⟩⟩
      · obtain ⟨i, hi⟩ := h.flag.mp hw
        exact ⟨i, (h.still i hi).2, (h.still i hi).1⟩
      · have heq := hs.step.symm.trans (Step.of_waits hw).step
        cases heq
        exact hw.2.1
    · -- A step that fails settles nothing: the older steps keep their say.
      have hfails := step_of_refusal hj hf
      have hsettles := not_settles_of_refusal hfails
      have hwaits (i : Instruction) : ¬ Waits i m .step := fun hw => hsettles hw.settles
      simp only [hsettles, hwaits, not_false_eq_true, true_and, false_or, Machine.handle, stepped, hfails]
      exact h
  | reset =>
    have hsettles : Settles m .reset := .inl rfl
    have hwaits (i : Instruction) : ¬ Waits i m .reset := by
      rintro ⟨heq, -⟩
      cases heq
    simp only [hsettles, hwaits, not_true_eq_false, false_and, or_self]
    refine ⟨⟨?_, ?_⟩, fun i hw => hw.elim⟩
    · intro hw
      cases hw
    · rintro ⟨i, hw⟩
      exact hw.elim
  | tick | press | release | releaseAll => exact houtside trivial

theorem flagTells_after (hm : m.waiting = false) (hes : ∀ rom, Event.load rom ∉ es) :
    FlagTells (m.after es) fun i => Since (Waits i) Settles m es := by
  induction es using List.reverseRecOn with
  | nil =>
    refine ⟨⟨?_, ?_⟩, fun i h => absurd h since_nil⟩
    · intro h
      rw [after_nil, hm] at h
      cases h
    · rintro ⟨i, h⟩
      exact absurd h since_nil
  | append_singleton es e ih =>
    have hbefore := ih fun rom h => hes rom (List.mem_append_left _ h)
    simp only [since_concat, after_concat]
    refine hbefore.handle fun rom heq => hes rom ?_
    rw [heq]
    exact List.mem_concat_self

/-! ### While no key is down -/

theorem run_of_waits (hi : m.fetched = some i) (hop : i.op = .ldk) (hk : m.keypad.pressed = []) (n : Nat) :
    m.run n 0 = .ok () (m.waited n) := by
  induction n with
  | zero => rfl
  | succ n ih =>
    have hwaits : Waits i (m.waited n) .step := ⟨rfl, hi, hop, hk⟩
    rw [run_succ, bind_of_ok ih, bind_of_ok (Step.of_waits hwaits).step, tickIfDue_of_not (not_tickDue_zero _),
      waited_succ]
    rfl

def Idles (m : Machine) (e : Event) : Prop := e = .step ∧ m.keypad.pressed = [] ∨ IsOutside e

theorem handle_waited (he : IsOutside e) (m : Machine) (n : Nat) : (m.waited n).handle e = (m.handle e).waited n := by
  cases e with
  | tick | press | release | releaseAll => rfl
  | _ => exact absurd he id

/-- A machine that waits is changed by the events from outside, and its steps are counted. -/
theorem after_of_idles (hi : m.fetched = some i) (hop : i.op = .ldk) (h : Throughout Idles m es) :
    SameInside m (m.after (es.filter (· ≠ .step))) ∧
    m.after es = (m.after (es.filter (· ≠ .step))).waited (es.count .step) := by
  induction es using List.reverseRecOn with
  | nil => exact ⟨rfl, rfl⟩
  | append_singleton es e ih =>
    -- A step adds to the count and an outside event to what came between; neither looks at the other.
    obtain ⟨hes, he⟩ := throughout_concat.mp h
    obtain ⟨hsame, hafter⟩ := ih hes
    rw [List.filter_append, List.count_append, after_concat]
    rcases he with ⟨rfl, hk⟩ | he
    · rw [show [Event.step].filter (· ≠ .step) = [] from rfl, List.append_nil, List.count_singleton_self]
      refine ⟨hsame, ?_⟩
      generalize m.after (es.filter (· ≠ .step)) = between at hsame hafter
      have hfetched : between.fetched = some i := by
        rw [hsame]
        exact hi
      rw [hafter] at hk ⊢
      have hwaits : Waits i (between.waited (es.count .step)) .step := ⟨rfl, hfetched, hop, hk⟩
      rw [handle, (Step.of_waits hwaits).stepped, waited_succ]
    · have hkept : [e].filter (· ≠ .step) = [e] := List.filter_cons_of_pos (decide_eq_true he.ne_step)
      rw [hkept, List.count_cons_of_ne he.ne_step, after_concat]
      obtain ⟨s, hs⟩ := handle_outside he (m.after (es.filter (· ≠ .step)))
      refine ⟨?_, ?_⟩
      · rw [hs, hsame]
        rfl
      · rw [hafter, handle_waited he]
        rfl

/-- From a loaded fresh machine the flag is up exactly if the last completed step since the last reset waited for a key; the
machine is then still at the same instruction. Steps that wait change the flag, the cycles and the count of their operation
only, whatever ticks and key events come between them; the first one that finds a key down stores the lowest and goes on. -/
theorem key_wait_does_not_block :
    (∀ keypad random rom es, (∀ rom', Event.load rom' ∉ es) →
      let start := ((new keypad random).load rom).2
      ((start.after es).waiting = true ↔ ∃ i, Since (Waits i) Settles start es) ∧
      ∀ i, Since (Waits i) Settles start es → i.op = .ldk ∧ (start.after es).fetched = some i) ∧
    ∀ (m : Machine) i, m.fetched = some i → i.op = .ldk →
      (m.keypad.pressed = [] → ∀ n : Nat, 1 ≤ n → m.run n 0 = .ok () (m.waited n) ∧ (m.waited n).waiting = true ∧
        ∀ k, (m.waited n).stats.count k = m.stats.count k + if some .ldk = k then n else 0) ∧
      ∀ es, Throughout Idles m es →
        let now := m.after es
        let between := m.after (es.filter (· ≠ .step))
        (SameInside m between ∧ now = between.waited (es.count .step)) ∧
        (now.keypad.pressed ≠ [] → ∃ k ∈ now.keypad.pressed, (∀ j ∈ now.keypad.pressed, k ≤ j) ∧
          ∃ b : UInt8, b.toNat = k.val ∧ now.step = .ok (some i) (now.tookKey i.x b)) := by
  refine ⟨?_, fun m i hi hop => ⟨?_, ?_⟩⟩
  · intro keypad random rom es hes
    have hdown : ((new keypad random).load rom).2.waiting = false := by
      obtain ⟨notices, hload⟩ := (new keypad random).exists_load_eq rom
      rw [hload]
      rfl
    have hflag := flagTells_after hdown hes
    exact ⟨hflag.flag, hflag.still⟩
  · intro hk n hn
    exact ⟨run_of_waits hi hop hk n, if_neg (by omega), fun k => m.stats.count_iterate_bump (some .ldk) k n⟩
  · intro es hes now between
    obtain ⟨hsame, hnow⟩ := after_of_idles hi hop hes
    refine ⟨⟨hsame, hnow⟩, fun hne => ?_⟩
    have hfetched : now.fetched = some i := by
      change now = between.waited _ at hnow
      change between = m.within _ at hsame
      rw [hnow, hsame]
      exact hi
    obtain ⟨k, ks, hk⟩ := List.exists_cons_of_ne_nil hne
    refine ⟨k, by rw [hk]; exact List.mem_cons_self, Keypad.head_le_of_pressed hk, UInt8.ofInt k.val, ?_,
      (Step.of_key hfetched hop hk).step⟩
    rw [toNat_ofInt]
    omega

/-- A program of one word, which waits for a key. -/
def waitForKey : List UInt8 := [0xF1, 0x0A]

/-- `waitForKey` waits for two steps and a tick, until the keys 12 and 5 are down; 5 is stored. -/
theorem key_wait_does_not_block_two_keys :
    let i : Instruction := { op := .ldk, word := 0xF10A, x := 1 }
    let start := ((new .released (.ofScript #[])).load waitForKey).2
    let es : List Event := [.step, .tick, .step, .press 12, .press 21]
    start.fetched = some i ∧ start.keypad.pressed = [] ∧ Throughout Idles start es ∧
      start.run 3 0 = .ok () (start.waited 3) ∧ (start.after es).waiting = true ∧
      ∃ b : UInt8, b.toNat = 5 ∧ (start.after es).step = .ok (some i) ((start.after es).tookKey 1 b) := by
  intro i start es
  have hi : start.fetched = some i := by decide +kernel
  have hk : start.keypad.pressed = [] := by decide +kernel
  have hagain : ((start.handle .step).handle .tick).keypad.pressed = [] := by decide +kernel
  have hes : Throughout Idles start es :=
    ⟨.inl ⟨rfl, hk⟩, .inr trivial, .inl ⟨rfl, hagain⟩, .inr trivial, .inr trivial, trivial⟩
  have hload : ∀ rom', Event.load rom' ∉ es := by simp [es]
  have hpressed : (start.after es).keypad.pressed = [5, 12] := by decide +kernel
  have hflag := (key_wait_does_not_block.1 .released (.ofScript #[]) waitForKey es hload).1
  obtain ⟨hrun, htake⟩ := key_wait_does_not_block.2 start i hi rfl
  obtain ⟨-, htake⟩ := htake es hes
  obtain ⟨k, hmem, hleast, b, hb, hstep⟩ := htake (by rw [hpressed]; exact List.cons_ne_nil _ _)
  rw [hpressed] at hmem hleast
  have hk5 : k = 5 := by
    have hle := hleast 5 (by decide)
    simp only [List.mem_cons, List.not_mem_nil, or_false] at hmem
    rcases hmem with rfl | rfl
    · rfl
    · exact absurd hle (by decide)
  rw [hk5] at hb
  have hlast : Waits i (start.after [.step, .tick]) .step := ⟨rfl, by decide +kernel, rfl, hagain⟩
  have hsince : Since (Waits i) Settles start ([.step, .tick, .step] ++ [.press 12] ++ [.press 21]) := by
    refine since_concat.mpr (.inr ⟨not_settles_of_outside trivial, ?_⟩)
    refine since_concat.mpr (.inr ⟨not_settles_of_outside trivial, ?_⟩)
    change Since (Waits i) Settles start ([.step, .tick] ++ [.step])
    exact since_concat.mpr (.inl hlast)
  exact ⟨hi, hk, hes, (hrun hk 3 (by decide)).1, hflag.mpr ⟨i, hsince⟩, b, hb, hstep⟩

end Machine
end Chip8

import Chip8.Proofs.Footprint
import Chip8.Proofs.Runs

/-! # What a program can tell about its surroundings

Timers, keys and the mark on the screen are what a host changes between the steps of a machine. Four operations look at
them: one reads the delay timer, three ask for keys. Any other instruction does the same to a machine in other
surroundings (`Effect.within`); so histories that differ in ticks and key events only lead to the same machine, in other
surroundings, until one of the four is executed. -/

namespace Chip8

/-- What a host changes between steps. -/
structure Surroundings where
  timers : Timers
  dirty : Bool
  keypad : Keypad

namespace Machine
variable {i : Instruction} {m m' m₁ : Machine} {a : MemoryAddress} {f : Fault} {r : Option Instruction} {s : Surroundings}

def surroundings (m : Machine) : Surroundings := ⟨m.timers, m.screen.dirty, m.keypad⟩

def within (m : Machine) (s : Surroundings) : Machine :=
  { m with timers := s.timers, screen := { m.screen with dirty := s.dirty }, keypad := s.keypad }

theorem within_within (s' : Surroundings) : (m.within s).within s' = m.within s' := rfl

/-- The machines are equal but for their surroundings. -/
def SameInside (m m' : Machine) : Prop := m' = m.within m'.surroundings

/-- The operations that ask for keys. -/
def keyOps : List Op := [.skp, .sknp, .ldk]

theorem skips_within {b : Bool} (h : skips i m = .ok b m) (hkeys : i.op ∈ keyOps → s.keypad = m.keypad) :
    skips i (m.within s) = .ok b (m.within s) := by
  obtain ⟨op, word, x, y, addr, byte, nibble⟩ := i
  cases op <;> cases h
  case skp | sknp =>
    have hpressed (n : Int) : (m.within s).keypad.isPressed n = m.keypad.isPressed n :=
      congrArg (·.isPressed n) (hkeys (by simp [keyOps]))
    simp only [skips, hpressed]
    rfl
  all_goals rfl

/-- An instruction that does not look at the surroundings does the same in others. Keys count as looked at only if they
are not the same. -/
theorem Effect.within (h : Effect i m a m') (hdelay : i.op ≠ .lddt) (hkeys : i.op ∈ keyOps → s.keypad = m.keypad) :
    ∃ s', s'.keypad = s.keypad ∧ Effect i (m.within s) a (m'.within s') := by
  cases h with
  | skip hop hb => exact ⟨s, rfl, .skip hop (skips_within hb hkeys)⟩
  | lddt hop => exact absurd hop hdelay
  | setdt hop => exact ⟨{ s with timers := s.timers.setDelay (m.registers.read i.x).toNat }, rfl, .setdt hop⟩
  | setst hop => exact ⟨{ s with timers := s.timers.setSound (m.registers.read i.x).toNat }, rfl, .setst hop⟩
  | cls hop => exact ⟨{ s with dirty := true }, rfl, .cls hop⟩
  | drw hop => exact ⟨{ s with dirty := true }, rfl, .drw hop⟩
  | keyTaken hop hk =>
    have hpressed : (m.within s).keypad.pressed = _ :=
      (congrArg Keypad.pressed (hkeys (by simp [hop, keyOps]))).trans hk
    exact ⟨s, rfl, .keyTaken hop hpressed⟩
  | keyAwaited hop hk =>
    have hpressed : (m.within s).keypad.pressed = [] :=
      (congrArg Keypad.pressed (hkeys (by simp [hop, keyOps]))).trans hk
    exact ⟨s, rfl, .keyAwaited hop hpressed⟩
  | alu hop hr => exact ⟨s, rfl, .alu hop hr⟩
  | call hop hd => exact ⟨s, rfl, .call (m := m.within s) hop hd⟩
  | ret hop hd => exact ⟨s, rfl, .ret (m := m.within s) hop hd⟩
  | ldi hop => exact ⟨s, rfl, .ldi hop⟩
  | addi hop => exact ⟨s, rfl, .addi hop⟩
  | ldfi hop => exact ⟨s, rfl, .ldfi hop⟩
  | store hop => exact ⟨s, rfl, .store hop⟩
  | load hop => exact ⟨s, rfl, .load hop⟩
  | jp hop => exact ⟨s, rfl, .jp hop⟩
  | jpv0 hop => exact ⟨s, rfl, .jpv0 hop⟩
  | rnd hop => exact ⟨s, rfl, .rnd hop⟩
  | sys hop => exact ⟨s, rfl, .sys hop⟩

theorem Refusal.within (h : Refusal i m f) (s : Surroundings) : Refusal i (m.within s) f := by
  cases h with
  | full hop hd => exact .full hop hd
  | empty hop hd => exact .empty hop hd
  | unknown hop => exact .unknown hop

/-- The instruction that a machine fetches looks at nothing that other surroundings make different. -/
def Blind (m : Machine) (s : Surroundings) : Prop :=
  ∀ i, m.fetched = some i → i.op ≠ .lddt ∧ (i.op ∈ keyOps → s.keypad = m.keypad)

theorem Step.within (h : Step m r m') (hb : m.Blind s) : ∃ s', s'.keypad = s.keypad ∧ Step (m.within s) r (m'.within s') := by
  cases h with
  | unrecognized h => exact ⟨s, rfl, .unrecognized (m := m.within s) h⟩
  | executed h he =>
    obtain ⟨s', hs', he'⟩ := he.within (hb _ h).1 (hb _ h).2
    exact ⟨s', hs', .executed (m := m.within s) h he'⟩

/-- A step in other surroundings completes or fails as in the old ones. -/
theorem step_within (hb : m.Blind s) :
    (∃ r m' s', m.step = .ok r m' ∧ (m.within s).step = .ok r (m'.within s') ∧
      m'.keypad = m.keypad ∧ s'.keypad = s.keypad) ∨
    ∃ f, m.step = .error f m ∧ (m.within s).step = .error f (m.within s) := by
  rcases step_or_refusal m with ⟨r, m', h⟩ | ⟨i, f, hi, hf⟩
  · obtain ⟨s', hs', h'⟩ := h.within hb
    exact .inl ⟨r, m', s', h.step, h'.step, h.footprint.keypad, hs'⟩
  · exact .inr ⟨f, step_of_refusal hi hf, step_of_refusal (m := m.within s) hi (hf.within s)⟩

/-! ### Schedules -/

/-- What a history of steps shows: the words that it fetches, the answers of its steps, and the fault of a step that fails,
which ends it. -/
structure Course where
  words : List Nat
  answers : List (Option Instruction)
  fault : Option Fault
  machine : Machine

def Course.cons (word : Nat) (r : Option Instruction) (c : Course) : Course :=
  { c with words := word :: c.words, answers := r :: c.answers }

/-- Events one after the other until a step fails. -/
def course (m : Machine) : List Event → Course
  | [] => ⟨[], [], none, m⟩
  | .step :: es =>
    let word := m.memory.readWord m.pc
    match m.step with
    | .ok r m' => (m'.course es).cons word r
    | .error f m' => ⟨[word], [], some f, m'⟩
  | e :: es => (m.handle e).course es

def IsOutside : Event → Prop
  | .tick | .press _ | .release _ | .releaseAll => True
  | _ => False

/-- A history of steps with ticks and key events between them. -/
def IsSchedule (es : List Event) : Prop := ∀ e ∈ es, e = .step ∨ IsOutside e

theorem IsOutside.ne_step {e : Event} (he : IsOutside e) : e ≠ .step := by
  rintro rfl
  exact he

theorem handle_outside {e : Event} (he : IsOutside e) (m : Machine) : ∃ s, m.handle e = m.within s := by
  cases e with
  | tick => exact ⟨{ m.surroundings with timers := m.timers.tick, dirty := false }, rfl⟩
  | press k => exact ⟨{ m.surroundings with keypad := m.keypad.press k }, rfl⟩
  | release k => exact ⟨{ m.surroundings with keypad := m.keypad.release k }, rfl⟩
  | releaseAll => exact ⟨{ m.surroundings with keypad := .released }, rfl⟩
  | _ => exact absurd he id

theorem course_outside {e : Event} (he : IsOutside e) (m : Machine) (es : List Event) :
    m.course (e :: es) = (m.handle e).course es := by
  cases e with
  | tick | press | release | releaseAll => rfl
  | _ => exact absurd he id

/-- The courses show the same, and end in machines that are equal but for their surroundings. -/
structure SameCourse (c c' : Course) : Prop where
  words : c'.words = c.words
  answers : c'.answers = c.answers
  fault : c'.fault = c.fault
  machine : SameInside c.machine c'.machine

theorem SameCourse.cons {c c' : Course} (h : SameCourse c c') (word : Nat) (r : Option Instruction) :
    SameCourse (c.cons word r) (c'.cons word r) :=
  ⟨congrArg (word :: ·) h.words, congrArg (r :: ·) h.answers, h.fault, h.machine⟩

theorem IsSchedule.tail {e : Event} {es : List Event} (h : IsSchedule (e :: es)) : IsSchedule es :=
  fun e' he' => h e' (List.mem_cons_of_mem _ he')

/-- A schedule has outside events up to its first step. -/
theorem IsSchedule.course_cases {es : List Event} (h : IsSchedule es) (m : Machine) :
    (es.count .step = 0 ∧ ∃ s, m.course es = ⟨[], [], none, m.within s⟩) ∨
    ∃ s rest, es.count .step = rest.count .step + 1 ∧ IsSchedule rest ∧
      m.course es = (m.within s).course (.step :: rest) := by
  induction es generalizing m with
  | nil => exact .inl ⟨rfl, m.surroundings, rfl⟩
  | cons e es ih =>
    rcases h e List.mem_cons_self with rfl | he
    · exact .inr ⟨m.surroundings, es, List.count_cons_self, h.tail, rfl⟩
    · obtain ⟨s, hs⟩ := handle_outside he m
      rw [List.count_cons_of_ne he.ne_step, course_outside he, hs]
      exact ih h.tail (m.within s)

theorem course_step_ok {es : List Event} (h : m.step = .ok r m') :
    m.course (.step :: es) = (m'.course es).cons (m.memory.readWord m.pc) r := by
  simp only [course, h]

theorem course_step_error {es : List Event} (h : m.step = .error f m') :
    m.course (.step :: es) = ⟨[m.memory.readWord m.pc], [], some f, m'⟩ := by
  simp only [course, h]

/-- Schedules of equally many steps lead the same way from machines that are equal but for their surroundings. -/
theorem sameCourse {es es' : List Event} (h : IsSchedule es) (h' : IsSchedule es') (hn : es'.count .step = es.count .step)
    (s : Surroundings) (hb : ∀ i, some i ∈ (m.course es).answers → i.op ∉ Op.lddt :: keyOps) :
    SameCourse (m.course es) ((m.within s).course es') := by
  -- The induction is on the steps that are left, and `m` and `s` may change with every outside event.
  generalize hcount : es.count .step = n at hn
  induction n generalizing m s es es' with
  | zero =>
    rcases h.course_cases m with ⟨-, s₁, hc⟩ | ⟨_, _, hpos, -⟩
    · rcases h'.course_cases (m.within s) with ⟨-, s₂, hc'⟩ | ⟨_, _, hpos, -⟩
      · rw [hc, hc']
        exact ⟨rfl, rfl, rfl, rfl⟩
      · omega
    · omega
  | succ n ih =>
    rcases h.course_cases m with ⟨hzero, -⟩ | ⟨s₁, rest, hrest, hsched, hc⟩
    · omega
    rcases h'.course_cases (m.within s) with ⟨hzero, -⟩ | ⟨s₂, rest', hrest', hsched', hc'⟩
    · omega
    rw [hc] at hb ⊢
    rw [hc', within_within, show m.within s₂ = (m.within s₁).within s₂ from rfl]
    rcases step_or_refusal (m.within s₁) with ⟨r, m₁, hstep⟩ | ⟨i, f, hi, hf⟩
    · rw [course_step_ok hstep.step] at hb ⊢
      have hblind : (m.within s₁).Blind s₂ := by
        intro i hi
        have hop := hb i (by rw [← hi, ← hstep.answer]; exact List.mem_cons_self)
        rw [List.mem_cons, not_or] at hop
        exact ⟨hop.1, fun hmem => absurd hmem hop.2⟩
      obtain ⟨s', -, hstep'⟩ := hstep.within hblind
      rw [course_step_ok hstep'.step]
      have hsame := ih hsched hsched' s' (fun i hi => hb i (List.mem_cons_of_mem _ hi)) (by omega) (by omega)
      exact hsame.cons _ r
    · rw [course_step_error (step_of_refusal hi hf),
        course_step_error (step_of_refusal (m := (m.within s₁).within s₂) hi (hf.within s₂))]
      exact ⟨rfl, rfl, rfl, rfl⟩

/-! ### Runs -/

theorem tickIfDue_within (k : Int) (made : Nat) (m : Machine) :
    ∃ s, s.keypad = m.keypad ∧ tickIfDue k made m = .ok () (m.within s) := by
  unfold tickIfDue
  split
  · exact ⟨{ m.surroundings with timers := m.timers.tick, dirty := false }, rfl, rfl⟩
  · exact ⟨m.surroundings, rfl, rfl⟩

/-- Runs of equally many steps that differ in their ticks only. -/
inductive SameRun : EStateM.Result Fault Machine Unit → EStateM.Result Fault Machine Unit → Prop
  | ok (m : Machine) (t : Surroundings) (ht : t.keypad = m.keypad) : SameRun (.ok () m) (.ok () (m.within t))
  | error (f : Fault) (m : Machine) (t : Surroundings) (ht : t.keypad = m.keypad) :
    SameRun (.error f m) (.error f (m.within t))

theorem sameRun {n : Nat} {k₁ k₂ : Int}
    (hd : ∀ j < n, ∀ m₁ i, m.run (j : Nat) k₁ = .ok () m₁ → m₁.fetched = some i → i.op ≠ .lddt) :
    SameRun (m.run n k₁) (m.run n k₂) := by
  induction n with
  | zero => exact .ok m m.surroundings rfl
  | succ n ih =>
    rw [run_succ, run_succ]
    have hn := ih fun j hj => hd j (Nat.lt_succ_of_lt hj)
    generalize h₁ : m.run n k₁ = r₁ at hn
    generalize h₂ : m.run n k₂ = r₂ at hn
    cases hn with
    | ok m₁ s hs =>
      rw [bind_of_ok h₁, bind_of_ok h₂]
      have hblind : m₁.Blind s := fun i hi => ⟨hd n (Nat.lt_succ_self n) m₁ i h₁ hi, fun _ => hs⟩
      rcases step_within hblind with ⟨r, m', s', hstep, hstep', hkeypad, hs'⟩ | ⟨f, hstep, hstep'⟩
      · obtain ⟨t, ht, htick⟩ := tickIfDue_within k₁ (n + 1) m'
        obtain ⟨t', ht', htick'⟩ := tickIfDue_within k₂ (n + 1) (m'.within s')
        rw [bind_of_ok hstep, bind_of_ok hstep', htick, htick']
        exact .ok (m'.within t) t' (ht'.trans (hs'.trans (hs.trans (hkeypad.symm.trans ht.symm))))
      · rw [bind_of_error hstep, bind_of_error hstep']
        exact .error f m₁ s hs
    | error f m₁ s hs =>
      rw [bind_of_error h₁, bind_of_error h₂]
      exact .error f m₁ s hs

/-- Ticks and key events reach a program by four operations only: schedules of equally many steps, of which the first
executes none of the four, fetch the same words, execute the same instructions and fail alike, and their machines are equal
but for timers, keys and the mark on the screen. Runs from one machine that differ in the cycles of a tick, of which the
first does not read the delay timer, are equal but for timers and the mark on the screen. -/
theorem surroundings_enter_by_four_operations :
    (∀ (m : Machine) es es', IsSchedule es → IsSchedule es' → es'.count .step = es.count .step →
      (∀ i, some i ∈ (m.course es).answers → i.op ∉ [.lddt, .skp, .sknp, .ldk]) →
        SameCourse (m.course es) (m.course es')) ∧
    ∀ (m : Machine) (n k₁ k₂ : Int),
      (∀ j : Nat, j < n → ∀ m₁ i, m.run j k₁ = .ok () m₁ → m₁.fetched = some i → i.op ≠ .lddt) →
      (∀ m₁, m.run n k₁ = .ok () m₁ →
        ∃ m₂, m.run n k₂ = .ok () m₂ ∧ SameInside m₁ m₂ ∧ m₂.keypad = m₁.keypad) ∧
      ∀ f m₁, m.run n k₁ = .error f m₁ →
        ∃ m₂, m.run n k₂ = .error f m₂ ∧ SameInside m₁ m₂ ∧ m₂.keypad = m₁.keypad := by
  refine ⟨fun m es es' h h' hn hb => sameCourse h h' hn m.surroundings hb, fun m n k₁ k₂ hd => ?_⟩
  have hcast (k : Int) : m.run n k = m.run (n.toNat : Int) k := rfl
  have hsame : SameRun (m.run n k₁) (m.run n k₂) := by
    rw [hcast, hcast]
    exact sameRun fun j hj => hd j (by omega)
  generalize m.run n k₁ = r₁ at hsame
  generalize m.run n k₂ = r₂ at hsame
  cases hsame with
  | ok m₁ s hs =>
    refine ⟨fun m₂ h => ?_, fun _ _ h => nomatch h⟩
    cases h
    exact ⟨_, rfl, rfl, hs⟩
  | error f m₁ s hs =>
    refine ⟨fun _ h => (nomatch h), fun g m₂ h => ?_⟩
    cases h
    exact ⟨_, rfl, rfl, hs⟩

/-- A program that puts 5 into V1, sets the delay timer to it and adds 2 to V1. -/
def setTimer : List UInt8 := [0x61, 0x05, 0xF1, 0x15, 0x71, 0x02]

/-- `setTimer` sets the delay timer and never reads it, so ticks and keys do not show. -/
theorem surroundings_enter_by_four_operations_set_timer :
    let m := ((new .released (.ofScript #[])).load setTimer).2
    let es : List Event := [.step, .step, .tick, .step]
    let es' : List Event := [.tick, .press 3, .step, .releaseAll, .step, .press 9, .step, .tick]
    (IsSchedule es ∧ IsSchedule es' ∧ es'.count .step = es.count .step) ∧
      (∀ i, some i ∈ (m.course es).answers → i.op ∉ [.lddt, .skp, .sknp, .ldk]) ∧
      SameCourse (m.course es) (m.course es') ∧
      ∃ m₁ m₂, m.run 3 1 = .ok () m₁ ∧ m.run 3 2 = .ok () m₂ ∧ SameInside m₁ m₂ ∧ m₂.keypad = m₁.keypad := by
  intro m es es'
  have hes : IsSchedule es := by simp [IsSchedule, IsOutside, es]
  have hes' : IsSchedule es' := by simp [IsSchedule, IsOutside, es']
  have hb : ∀ i, some i ∈ (m.course es).answers → i.op ∉ [.lddt, .skp, .sknp, .ldk] := by
    have hops : ∀ r ∈ (m.course es).answers, ∀ i ∈ r, i.op ∉ [.lddt, .skp, .sknp, .ldk] := by decide +kernel
    exact fun i hi => hops _ hi i rfl
  have hquiet : ∀ j < 3, (match m.run (j : Nat) 1 with
      | .ok _ m₁ => m₁.fetched.map (·.op)
      | .error _ _ => none) ≠ some .lddt := by
    decide +kernel
  have hd : ∀ j : Nat, (j : Int) < 3 → ∀ m₁ i, m.run j 1 = .ok () m₁ → m₁.fetched = some i → i.op ≠ .lddt := by
    intro j hj m₁ i h hi hop
    have hj := hquiet j (by omega)
    rw [h] at hj
    simp only [hi, Option.map_some, hop, ne_eq, not_true_eq_false] at hj
  refine ⟨⟨hes, hes', by decide⟩, hb, surroundings_enter_by_four_operations.1 m es es' hes hes' (by decide) hb, ?_⟩
  have hcompletes : (match m.run 3 1 with | .ok _ _ => true | .error _ _ => false) = true := by
    decide +kernel
  cases h : m.run 3 1 with
  | ok _ m₁ =>
    obtain ⟨m₂, h₂, hsame⟩ := (surroundings_enter_by_four_operations.2 m 3 1 2 hd).1 m₁ h
    exact ⟨m₁, m₂, rfl, h₂, hsame⟩
  | error =>
    rw [h] at hcompletes
    cases hcompletes

end Machine
end Chip8

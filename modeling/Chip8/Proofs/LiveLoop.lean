import Chip8.Proofs.Drawing
import Chip8.Proofs.Picture
import Chip8.Proofs.Runs
import Chip8.Session.Live

/-! # The live loop and the headless run

A live session meets its machine only through the answers of its clock: `follow` is the session under given answers, and
the loop is a session under the answers that its readings get (`loop_eq_follow`). Each due tick makes one batch of the
headless run (`follow_machine`), and the last frame shows the screen whenever the clock is asked (`follow_shown`). -/

namespace Chip8

namespace Machine
variable {m m' : Machine} {r : Option Instruction}

theorem Step.screen (h : Step m r m') : m'.screen.dirty = true ∨ m'.screen = m.screen := by
  rw [← h.stepped]
  by_cases hd : Draws m .step
  · exact .inl (stepped_of_draws hd).1
  · exact .inr (screen_stepped hd)

/-- After steps without ticks, the screen is marked or nothing has written it. -/
theorem screen_run {n : Nat} (h : m.run n 0 = .ok () m') : m'.screen.dirty = true ∨ m'.screen = m.screen := by
  refine run_preserves (P := fun m' => m'.screen.dirty = true ∨ m'.screen = m.screen) ?_ ?_ (.inr rfl) h
  · intro m₁ r m₂ hm₁ hstep
    rcases (step_eq_ok.mp hstep).screen with hs | hs
    · exact .inl hs
    · rw [hs]
      exact hm₁
  · exact fun hpos => absurd hpos (by decide)

/-- What the ticks of `n` batches of steps report, each with the machine after it, until a step fails. -/
def ticks (cyclesPerTick : Int) : Nat → Machine → List (Bool × Machine)
  | 0, _ => []
  | n + 1, m =>
    match m.run cyclesPerTick 0 with
    | .ok _ m => m.tick :: ticks cyclesPerTick n m.tick.2
    | .error _ _ => []

end Machine

namespace Session
open Machine View

/-- The failure that ended a run, if one did, and the machine that it left. -/
def endOf : EStateM.Result Fault Machine Unit → Option Failure × Machine
  | .ok _ m => (none, m)
  | .error f m => (some (.fault f), m)

/-- What the clock answers to the readings of a loop that no failure ends. -/
def clockAnswers (cost : Float) (clock : TickClock Float) : (now : Float) → (polls : Nat) → List Bool
  | _, 0 => []
  | now, polls + 1 =>
    let (due, clock) := clock.check now
    let now := now + cost
    due :: if due then clockAnswers cost clock now polls
    else
      match polls with
      | 0 => []
      | polls + 1 => clockAnswers cost clock (now + cost + clock.remaining now) polls

namespace Live
variable {size : Nat} {k : Int} {m : Machine} {l : Live} {answers : List Bool}

/-- The session after answers of its clock, and the failure that ended it, if one did. -/
def follow (cyclesPerTick : Option Int) : List Bool → Live → Option Failure × Live
  | [], l => (none, l)
  | false :: answers, l => follow cyclesPerTick answers l
  | true :: answers, l =>
    match l.onTick cyclesPerTick with
    | (.ok _, l) => follow cyclesPerTick answers l
    | (.error e, l) => (some e, l)

/-- The session after the tick of a batch that left `m`. -/
def ticked (l : Live) (m : Machine) : Live :=
  let l := { l with machine := m.tick.2 }
  if m.tick.1 then l.present else l

theorem onTick_of_ok (h : l.machine.run k 0 = .ok () m) : l.onTick (some k) = (.ok (), l.ticked m) := by
  simp only [onTick, h, ticked]

theorem onTick_of_error {f : Fault} (h : l.machine.run k 0 = .error f m) :
    l.onTick (some k) = (.error (.fault f), { l with machine := m }) := by
  simp only [onTick, h]

@[simp] theorem ticked_machine (l : Live) (m : Machine) : (l.ticked m).machine = m.tick.2 := by
  unfold ticked
  split <;> rfl

@[simp] theorem ticked_title (l : Live) (m : Machine) : (l.ticked m).title = l.title := by
  unfold ticked
  split <;> rfl

theorem follow_true_of_ok (h : l.machine.run k 0 = .ok () m) :
    l.follow (some k) (true :: answers) = (l.ticked m).follow (some k) answers := by
  simp only [follow, onTick_of_ok h]

theorem follow_true_of_error {f : Fault} (h : l.machine.run k 0 = .error f m) :
    l.follow (some k) (true :: answers) = (some (.fault f), { l with machine := m }) := by
  simp only [follow, onTick_of_error h]

/-- A session makes the headless run of as many batches as it gets due ticks. -/
theorem follow_machine (hsize : 0 < size) (answers : List Bool) (l : Live) :
    ((l.follow (some size) answers).1, (l.follow (some size) answers).2.machine) =
      endOf (l.machine.run (answers.count true * size : Nat) size) := by
  induction answers generalizing l with
  | nil =>
    rw [List.count_nil, Nat.zero_mul]
    rfl
  | cons due answers ih =>
    cases due with
    | false =>
      rw [List.count_cons_of_ne (by decide)]
      exact ih l
    | true =>
      rw [List.count_cons_self, run_batches hsize]
      cases h : l.machine.run size 0 with
      | ok _ m =>
        rw [follow_true_of_ok h, bind_of_ok h, ih, ticked_machine]
        rfl
      | error f m =>
        rw [follow_true_of_error h, bind_of_error h]
        rfl

/-- A session shows a frame for each tick that reports, after the frames that it has shown. -/
theorem follow_frames (answers : List Bool) (l : Live) : (l.follow (some k) answers).2.frames.toList =
    l.frames.toList ++ ((ticks k (answers.count true) l.machine).filter (·.1)).map fun t => .of t.2 l.title := by
  induction answers generalizing l with
  | nil => simp [follow, ticks]
  | cons due answers ih =>
    cases due with
    | false =>
      rw [List.count_cons_of_ne (by decide)]
      exact ih l
    | true =>
      rw [List.count_cons_self, ticks]
      cases h : l.machine.run k 0 with
      | ok _ m =>
        rw [follow_true_of_ok h, ih, ticked_machine, ticked_title]
        cases hdirty : m.tick.1 <;> simp [ticked, hdirty, present]
      | error f m =>
        rw [follow_true_of_error h]
        simp

/-- The last frame shows the screen of the machine, and nothing has written it since. -/
structure UpToDate (l : Live) : Prop where
  clean : l.machine.screen.dirty = false
  shown : ∃ f, l.frames.back? = some f ∧ f.lines = picture l.machine.screen

theorem upToDate_start (title : String) (h : m.screen.dirty = false) : (start m title).UpToDate := ⟨h, _, rfl, rfl⟩

theorem UpToDate.ticked (h : l.UpToDate) (hm : l.machine.run k 0 = .ok () m) : (l.ticked m).UpToDate := by
  have hbatch : l.machine.run (k.toNat : Nat) 0 = .ok () m := hm
  unfold Live.ticked
  cases hdirty : m.screen.dirty with
  | true =>
    rw [if_pos (show m.tick.1 = true from hdirty)]
    exact ⟨rfl, _, Array.back?_push .., rfl⟩
  | false =>
    rw [if_neg (by rw [show m.tick.1 = false from hdirty]; decide)]
    rcases screen_run hbatch with hs | hs
    · rw [hs] at hdirty
      cases hdirty
    · obtain ⟨f, hf, hlines⟩ := h.shown
      refine ⟨rfl, f, hf, hlines.trans (picture_eq_iff.mpr ?_)⟩
      exact (congrArg Screen.rows hs).symm

theorem UpToDate.follow (h : l.UpToDate) (hend : (l.follow (some k) answers).1 = none) :
    (l.follow (some k) answers).2.UpToDate := by
  induction answers generalizing l with
  | nil => exact h
  | cons due answers ih =>
    cases due with
    | false => exact ih h hend
    | true =>
      cases hm : l.machine.run k 0 with
      | ok _ m =>
        rw [follow_true_of_ok hm] at hend ⊢
        exact ih (h.ticked hm) hend
      | error f m =>
        rw [follow_true_of_error hm] at hend
        cases hend

end Live

section Loop
variable {cost now : Float} {clock clock' : TickClock Float} {polls : Nat}

theorem clockAnswers_of_due (h : clock.check now = (true, clock')) :
    clockAnswers cost clock now (polls + 1) = true :: clockAnswers cost clock' (now + cost) polls := by
  rw [clockAnswers, h]
  rfl

theorem clockAnswers_of_idle (h : clock.check now = (false, clock')) :
    clockAnswers cost clock now (polls + 2) =
      false :: clockAnswers cost clock' (now + cost + cost + clock'.remaining (now + cost)) polls := by
  rw [clockAnswers, h]
  rfl

theorem clockAnswers_of_idle_last (h : clock.check now = (false, clock')) : clockAnswers cost clock now 1 = [false] := by
  rw [clockAnswers, h]
  rfl

/-- A loop is the session under the answers that its readings get. -/
theorem loop_eq_follow (cyclesPerTick : Option Int) (cost : Float) (clock : TickClock Float) (slept : Array Float)
    (l : Live) (now : Float) (polls : Nat) :
    let r := l.follow cyclesPerTick (clockAnswers cost clock now polls)
    ∃ slept' pollsLeft, loop cyclesPerTick cost clock slept l now polls = ⟨r.2, r.1, slept', pollsLeft⟩ := by
  fun_induction loop cyclesPerTick cost clock slept l now polls
  case case1 => exact ⟨_, _, rfl⟩
  case case2 hl hdue ih =>
    rw [clockAnswers_of_due hdue, Live.follow, hl]
    exact ih
  case case3 hl hdue =>
    rw [clockAnswers_of_due hdue, Live.follow, hl]
    exact ⟨_, _, rfl⟩
  case case4 hcheck hidle =>
    rw [eq_false_of_ne_true hidle] at hcheck
    rw [clockAnswers_of_idle_last hcheck]
    exact ⟨_, _, rfl⟩
  case case5 hcheck _ hidle _ _ ih =>
    rw [eq_false_of_ne_true hidle] at hcheck
    rw [clockAnswers_of_idle hcheck, Live.follow]
    exact ih

end Loop

section Shown
variable {console : Console} {e : Ended} {f : Frame}

/-- A session whose last frame is drawn is reported as it ended. -/
theorem outcome_of_drawn {lines : List String} (hf : e.live.frames.back? = some f) (h : console.draw f = .ok lines) :
    (PlayReport.ofEnded console e).outcome = e.failure.elim (.ok e.live.machine) .error := by
  simp only [PlayReport.ofEnded, hf, Option.elim_some, h]
  cases e.failure <;> rfl

theorem outcome_of_refused {d : DrawError} (hf : e.live.frames.back? = some f) (h : console.draw f = .error d) :
    (PlayReport.ofEnded console e).outcome = .error (.screen d) := by
  simp only [PlayReport.ofEnded, hf, Option.elim_some, h]

end Shown

/-- A live session of any program, with at least one step a tick. Whatever its clock answers, it ends as the headless run of
as many batches as it gets due ticks: in the same machine, or by the same fault in the same machine. It shows the machine
at its start and then after each tick that reports, and as long as no step failed the last frame shows the present
screen. What is played from a file is such a session, under the answers that its readings get; it is reported as it ended
if the console draws its last frame. -/
theorem play_agrees_with_run (keypad : Keypad) (random : RandomSource) (rom : List UInt8) (k : Int) (hk : 1 ≤ k) :
    let m := ((Machine.new keypad random).load rom).2
    (∀ (title : String) (answers : List Bool),
      let n := answers.count true
      let r := (Live.start m title).follow (some k) answers
      (r.1, r.2.machine) = endOf (m.run (n * k) k) ∧
      r.2.frames.toList = .of m title :: ((ticks k n m).filter (·.1)).map (fun t => .of t.2 title) ∧
      r.2.frames.size = 1 + (ticks k n m).countP (·.1) ∧
      (r.1 = none → ∃ f, r.2.frames.back? = some f ∧ ∀ s, f.lines = picture s ↔ s.rows = r.2.machine.screen.rows)) ∧
    ∀ console path rate time clock t, startClock rate time = .ok (clock, t) →
      let r := (Live.start m (Path.ofString path).name).follow (some k) (clockAnswers t.cost clock t.now t.polls)
      let report := play console path (.ok rom) rate (some k) keypad random time
      (∃ slept pollsLeft, report = .ofEnded console ⟨r.2, r.1, slept, pollsLeft⟩) ∧
      ∀ f lines, r.2.frames.back? = some f → console.draw f = .ok lines →
        report.outcome = r.1.elim (.ok r.2.machine) .error := by
  obtain ⟨size, rfl⟩ : ∃ size : Nat, k = size := ⟨k.toNat, by omega⟩
  have hsize : 0 < size := by omega
  intro m
  have hclean : m.screen.dirty = false := congrArg Screen.dirty (screen_load (new keypad random) rom)
  refine ⟨fun title answers => ?_, fun console path rate time clock t hclock => ?_⟩
  · intro n r
    have hframes : r.2.frames.toList = _ := Live.follow_frames answers (Live.start m title)
    refine ⟨?_, hframes, ?_, fun hend => ?_⟩
    · rw [← Int.natCast_mul]
      exact Live.follow_machine hsize answers (Live.start m title)
    · rw [← Array.length_toList, hframes, List.length_append, List.length_map, List.countP_eq_length_filter]
      rfl
    · obtain ⟨f, hf, hlines⟩ := ((Live.upToDate_start title hclean).follow hend).shown
      refine ⟨f, hf, fun s => ?_⟩
      rw [hlines, picture_eq_iff]
      exact eq_comm
  · intro r report
    obtain ⟨slept, pollsLeft, hloop⟩ := loop_eq_follow (some size) t.cost clock #[]
      (Live.start m (Path.ofString path).name) t.now t.polls
    have hplay : report = .ofEnded console ⟨r.2, r.1, slept, pollsLeft⟩ := by
      simp only [report, play, hclock]
      exact congrArg _ hloop
    refine ⟨⟨slept, pollsLeft, hplay⟩, fun f lines hf hlines => ?_⟩
    rw [hplay]
    exact outcome_of_drawn hf hlines

/-- A program that clears the screen. -/
def clearOnce : List UInt8 := [0x00, 0xE0]

/-- `clearOnce` with one step a tick: the only due tick has something to show. -/
theorem play_agrees_with_run_clear_once :
    let m := ((Machine.new .released (.ofScript #[])).load clearOnce).2
    let r := (Live.start m "clear").follow (some 1) [false, true, false]
    (1 : Int) ≤ 1 ∧ r.1 = none ∧ (r.1, r.2.machine) = endOf (m.run 1 1) ∧ r.2.frames.size = 2 ∧
      ∃ f, r.2.frames.back? = some f ∧ ∀ s, f.lines = picture s ↔ s.rows = r.2.machine.screen.rows := by
  have hplay := (play_agrees_with_run .released (.ofScript #[]) clearOnce 1 (by decide)).1 "clear" [false, true, false]
  have hrun : (endOf (((Machine.new .released (.ofScript #[])).load clearOnce).2.run 1 1)).1.isNone = true := by
    decide +kernel
  have hticks : (ticks 1 1 ((Machine.new .released (.ofScript #[])).load clearOnce).2).countP (·.1) = 1 := by
    decide +kernel
  have hone : [false, true, false].count true = 1 := rfl
  simp only [hone, hticks, Int.natCast_one, Int.mul_one] at hplay
  -- The facts about the program are evaluated, and nothing is to be evaluated again.
  generalize ((Machine.new .released (.ofScript #[])).load clearOnce).2 = m at *
  intro m r
  obtain ⟨hend, -, hsize, hshown⟩ := hplay
  have hnone : r.1 = none := (congrArg Prod.fst hend).trans (Option.isNone_iff_eq_none.mp hrun)
  exact ⟨by decide, hnone, hend, hsize, hshown hnone⟩

end Session
end Chip8

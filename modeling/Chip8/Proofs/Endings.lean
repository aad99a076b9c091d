import Chip8.Cli.Invoke
import Chip8.Proofs.Arguments
import Chip8.Proofs.HeadlessReport
import Chip8.Proofs.LiveLoop

/-! # How a command line ends

A command line ends as it should (`Ends`) or by a failure that it does not report (`Uncaught`), and each of the two in no other
way than is listed there. A program has no part in the second: what it can do wrong are calls and returns that the stack
refuses, and these are reported. -/

namespace Chip8.Cli
open Machine Session View
variable {args : List String} {w : Surroundings} {c : Command} {o : Options} {m : Machine} {x : Option Nat} {e : Failure}

/-- The command line asks for `c` with the options `o`, at a known log level. -/
def Asks (args : List String) (c : Command) (o : Options) : Prop :=
  ∃ s, parse args = .ok s ∧ s.threshold ≠ none ∧ s.command = some (c, o)

/-- The program that the command line asks for is read, and `m` holds it. -/
def Starts (args : List String) (w : Surroundings) (c : Command) (o : Options) (m : Machine) : Prop :=
  Asks args c o ∧ ∃ rom, Rom.read w.storage o.rom = .ok rom ∧ m = ((new .released w.random).load rom).2

/-- The steps of `run` end at the machine `last`, whose screen is then to be shown, with an exit code. -/
inductive RunEnd (o : Options) (m : Machine) : (last : Machine) → (code : Nat) → Prop
  | completed {n : Nat} {k : Int} (hn : o.maxCycles = some (n : Int)) (hk : o.cyclesPerTick = some k)
    (hc : m.Completes k n) : RunEnd o m (m.after (paced k n)) 0
  | failed {n j : Nat} {k : Int} (hn : o.maxCycles = some (n : Int)) (hk : o.cyclesPerTick = some k) (hj : j < n)
    (hc : m.Completes k j) (hf : (m.after (paced k j)).FailsOnStack) : RunEnd o m (m.after (paced k j)) 1
  /-- The first step is made before the cycles of a tick are needed. -/
  | failedAtOnce (hn : o.maxCycles ≠ none) (hf : m.FailsOnStack) : RunEnd o m m 1

/-- The session of `play` is held: its clock reports `due` ticks until the user interrupts, and `f` is the frame that it shows
last. -/
def Plays (args : List String) (w : Surroundings) (o : Options) (m : Machine) (due : Nat) (f : Frame) : Prop :=
  Starts args w .play o m ∧ ∃ clock t, startClock (o.rate.map .float) w.time = .ok (clock, t) ∧
    (clockAnswers t.cost clock t.now t.polls).count true = due ∧
    ((Live.start m (Path.ofString o.rom).name).follow o.cyclesPerTick
      (clockAnswers t.cost clock t.now t.polls)).2.frames.back? = some f

/-- The batches of `play` end after `due` ticks, with an exit code or, by the user, without one. -/
inductive PlayEnd (o : Options) (m : Machine) (due : Nat) : Option Nat → Prop
  | interrupted {k : Nat} (hk : o.cyclesPerTick = some (k : Int)) (hc : m.Completes k (due * k)) : PlayEnd o m due none
  | interruptedIdle (hdue : due = 0) : PlayEnd o m due none
  | failed {k j : Nat} (hk : o.cyclesPerTick = some (k : Int)) (hj : j < due * k) (hc : m.Completes k j)
    (hf : (m.after (paced k j)).FailsOnStack) : PlayEnd o m due (some 1)

/-- The ends of a command line, with the exit codes. There is none after an interrupt. -/
inductive Ends (args : List String) (w : Surroundings) : Option Nat → Prop
  | help (h : parse args = .error .help) : Ends args w (some 0)
  | invalid {program message : String} (h : parse args = .error (.usage program message)) : Ends args w (some 2)
  | noCommand {s : Settings} (h : parse args = .ok s) (ht : s.threshold ≠ none) (hc : s.command = none) :
    Ends args w (some 1)
  | rejected {c : Command} {o : Options} {e : RomError} (h : Asks args c o)
    (hrom : Rom.read w.storage o.rom = .error (.rom e)) : Ends args w (some 1)
  | ran {o : Options} {m last : Machine} {code : Nat} (h : Starts args w .run o m) (hend : RunEnd o m last code)
    (hd : w.console.Draws (.of last o.rom)) : Ends args w (some code)
  | played {o : Options} {m : Machine} {due : Nat} {f : Frame} {x : Option Nat} (h : Plays args w o m due f)
    (hend : PlayEnd o m due x) (hd : w.console.Draws f) : Ends args w x

/-- The failures that are not reported: an option without a value where the value is needed, a path that no file can have, a rate
that no clock can have, an interrupt before the clock is set, and a last screen that the console refuses, which comes before
anything else that ended a live session. Options lack their values only under a parser of arguments that drops the separator
from the value of an option, as release 3.11 of the one modelled does; later releases take this for a usage error. -/
inductive Uncaught (args : List String) (w : Surroundings) : Failure → Prop
  | logLevel {s : Settings} (h : parse args = .ok s) (ht : s.threshold = none) : Uncaught args w (.missing .logLevel)
  | nulInPath {c : Command} {o : Options} (h : Asks args c o) (hpath : '\x00' ∈ o.rom.toList) : Uncaught args w .nulInPath
  | maxCycles {o : Options} {m : Machine} (h : Starts args w .run o m) (hn : o.maxCycles = none) :
    Uncaught args w (.missing .maxCycles)
  | ticking {o : Options} {m : Machine} (h : Starts args w .run o m) (hn : o.maxCycles ≠ none)
    (hk : o.cyclesPerTick = none) (hf : ¬ m.FailsOnStack) : Uncaught args w (.missing .ticking)
  | rate {o : Options} {m : Machine} (h : Starts args w .play o m) (hr : o.rate = none) : Uncaught args w (.missing .rate)
  | rateNotPositive {o : Options} {m : Machine} {r : Float} (h : Starts args w .play o m) (hr : o.rate = some r)
    (hle : r ≤ 0) : Uncaught args w (.rateNotPositive (.float r))
  | interrupted {o : Options} {m : Machine} {r : Float} (h : Starts args w .play o m) (hr : o.rate = some r)
    (hle : ¬ r ≤ 0) (hpolls : w.time.polls = 0) : Uncaught args w .interrupted
  | batch {o : Options} {m : Machine} {due : Nat} {f : Frame} (h : Plays args w o m due f) (hk : o.cyclesPerTick = none)
    (hdue : 0 < due) (hd : w.console.Draws f) : Uncaught args w (.missing .batch)
  | runScreen {o : Options} {m last : Machine} {code : Nat} {d : DrawError} (h : Starts args w .run o m)
    (hend : RunEnd o m last code) (hd : w.console.draw (.of last o.rom) = .error d) : Uncaught args w (.screen d)
  | playScreen {o : Options} {m : Machine} {due : Nat} {f : Frame} {d : DrawError} (h : Plays args w o m due f)
    (hd : w.console.draw f = .error d) : Uncaught args w (.screen d)

/-- The exit code, and the failure that is not reported. -/
def Outcome.ending (out : Outcome) : Option Nat × Option Failure := (out.exit, out.failure)

/-- How a headless run ends. -/
def endOfRun : Except Failure Nat → Option Nat × Option Failure
  | .ok code => (some code, none)
  | .error e => (none, some e)

/-- How a live session ends, by the failure that came before the user. -/
def endOfPlay : Option Failure → Option Nat × Option Failure
  | none => (none, none)
  | some e => if e.isReported then (some 1, none) else (none, some e)

theorem invoke_run (h : Asks args .run o) : (invoke args w).ending =
    endOfRun (runHeadless w.console o.rom (Rom.read w.storage o.rom) w.random o.maxCycles o.cyclesPerTick).outcome := by
  obtain ⟨s, hparse, ht, hc⟩ := h
  obtain ⟨t, ht⟩ := Option.ne_none_iff_exists'.mp ht
  simp only [invoke, hparse, ht, hc, invokeRun]
  cases (runHeadless w.console o.rom (Rom.read w.storage o.rom) w.random o.maxCycles o.cyclesPerTick).outcome <;> rfl

theorem invoke_play (h : Asks args .play o) : (invoke args w).ending =
    endOfPlay (match (play w.console o.rom (Rom.read w.storage o.rom) (o.rate.map .float) o.cyclesPerTick .released
        w.random w.time).outcome with
      | .ok _ => none
      | .error e => some e) := by
  obtain ⟨s, hparse, ht, hc⟩ := h
  obtain ⟨t, ht⟩ := Option.ne_none_iff_exists'.mp ht
  simp only [invoke, hparse, ht, hc, invokePlay]
  cases (play w.console o.rom (Rom.read w.storage o.rom) (o.rate.map .float) o.cyclesPerTick .released w.random
    w.time).outcome with
  | ok m => rfl
  | error e =>
    simp only [endOfPlay]
    split <;> rfl

theorem Asks.valid (h : Asks args c o) : o.Valid (∀ a ∈ args, ¬ GivesSeparator a) := by
  obtain ⟨s, hparse, -, hc⟩ := h
  exact (parse_valid hparse).options c o hc

theorem Asks.maxCycles_cases (h : Asks args c o) : o.maxCycles = none ∨ ∃ n : Nat, 0 < n ∧ o.maxCycles = some (n : Int) := by
  cases hn : o.maxCycles with
  | none => exact .inl rfl
  | some n =>
    have hpos := h.valid.maxCycles n hn
    exact .inr ⟨n.toNat, by omega, congrArg some (by omega)⟩

theorem Asks.cyclesPerTick_cases (h : Asks args c o) :
    o.cyclesPerTick = none ∨ ∃ k : Nat, 0 < k ∧ o.cyclesPerTick = some (k : Int) := by
  cases hk : o.cyclesPerTick with
  | none => exact .inl rfl
  | some k =>
    have hpos := h.valid.cyclesPerTick k hk
    exact .inr ⟨k.toNat, by omega, congrArg some (by omega)⟩

/-! ### Headless runs -/

theorem read_cases (st : Storage) (path : String) : (∃ rom, Rom.read st path = .ok rom) ∨
    (∃ e, Rom.read st path = .error (.rom e)) ∨ '\x00' ∈ path.toList ∧ Rom.read st path = .error .nulInPath := by
  by_cases hpath : '\x00' ∈ path.toList
  · exact .inr (.inr ⟨hpath, Rom.read_of_nul st hpath⟩)
  · rw [Rom.read_eq st hpath]
    cases h : Rom.ofRead path (st.read (.ofString path)) with
    | ok rom => exact .inl ⟨rom, rfl⟩
    | error e => exact .inr (.inl ⟨e, rfl⟩)

theorem Starts.invoke_run (h : Starts args w .run o m) :
    (invoke args w).ending = endOfRun (runLoaded w.console o.rom m o.maxCycles o.cyclesPerTick).outcome := by
  obtain ⟨hasks, rom, hrom, rfl⟩ := h
  rw [Cli.invoke_run hasks, hrom]
  rfl

/-- A run that lacks the cycles of a tick makes its first step. -/
theorem runLoaded_lacking {console : Console} {title : String} {n : Nat} (hn : 0 < n) :
    runLoaded console title m (some n) none =
      match m.run (1 : Nat) 0 with
      | .ok _ m => .lacking .ticking m
      | r => .ofRun console title r := by
  have hmin : min (n : Int) 1 = (1 : Nat) := by omega
  have hpos : (0 : Int) < n := by omega
  simp only [runLoaded, hmin]
  cases m.run (1 : Nat) 0 with
  | ok _ m' => simp only [hpos, ↓reduceIte]
  | error f m' => rfl

/-- Where its steps end, a run shows the screen. -/
theorem Starts.shows {last : Machine} {code : Nat} (h : Starts args w .run o m) (hend : RunEnd o m last code) :
    ∃ summary log, runLoaded w.console o.rom m o.maxCycles o.cyclesPerTick =
      .showing w.console (.of last o.rom) code summary log := by
  cases hend with
  | completed hn hk hc =>
    rw [hn, hk, runLoaded, run_eq_ok_iff.mpr ⟨hc, rfl⟩]
    exact ⟨_, _, rfl⟩
  | failed hn hk hj hc hf =>
    obtain ⟨f, hrun, -⟩ := hf.run hc hj
    rw [hn, hk, runLoaded, hrun]
    exact ⟨_, _, rfl⟩
  | failedAtOnce hn hf =>
    obtain ⟨n, hpos, hn⟩ := h.1.maxCycles_cases.resolve_left hn
    rcases h.1.cyclesPerTick_cases with hk | ⟨k, -, hk⟩
    · have hfirst : (m.after (paced 0 0)).FailsOnStack := hf
      obtain ⟨f, hrun, -⟩ := hfirst.run (completes_zero m 0) Nat.one_pos
      rw [hn, hk, runLoaded_lacking hpos, hrun]
      exact ⟨_, _, rfl⟩
    · have hfirst : (m.after (paced k 0)).FailsOnStack := hf
      obtain ⟨f, hrun, -⟩ := hfirst.run (completes_zero m k) hpos
      rw [hn, hk, runLoaded, hrun]
      exact ⟨_, _, rfl⟩

theorem outcome_of_lacking {console : Console} {title : String} {n : Nat} (hn : 0 < n) (hf : ¬ m.FailsOnStack) :
    (runLoaded console title m (some n) none).outcome = .error (.missing .ticking) := by
  rw [runLoaded_lacking hn]
  rcases run_cases m 0 1 with ⟨-, hrun⟩ | ⟨j, f, hj, -, hstep, -⟩
  · rw [hrun]
    rfl
  · obtain rfl : j = 0 := Nat.lt_one_iff.mp hj
    exact absurd (failsOnStack_of_step hstep).1 hf

/-! ### Live sessions -/

section Clock
variable {r : Float} {time : Time}

theorem startClock_of_not_positive (h : r ≤ 0) :
    startClock (some (.float r)) time = .error (.rateNotPositive (.float r)) := by
  simp only [startClock, tickInterval, Rate.interval, Rate.notPositive, h, decide_true, ↓reduceIte]
  rfl

theorem startClock_of_positive (h : ¬ r ≤ 0) : startClock (some (.float r)) time =
    match time.polls with
    | 0 => .error .interrupted
    | polls + 1 => .ok (.start (1 / r) time.now, ⟨time.now + time.cost, time.cost, polls⟩) := by
  simp only [startClock, tickInterval, Rate.interval, Rate.notPositive, h, decide_false, Bool.false_eq_true, ↓reduceIte,
    Rate.interval?]
  cases time.polls <;> rfl

end Clock

/-- A session that lacks the steps of a batch ends at its first due tick. -/
theorem follow_none (answers : List Bool) (l : Live) :
    (l.follow none answers).1 = if 0 < answers.count true then some (.missing .batch) else none := by
  induction answers generalizing l with
  | nil => rfl
  | cons due answers ih =>
    cases due with
    | false =>
      rw [List.count_cons_of_ne (by decide)]
      exact ih l
    | true => rw [List.count_cons_self, if_pos (Nat.succ_pos _), Live.follow, Live.onTick]

theorem Starts.refused (h : Starts args w .play o m) (he : startClock (o.rate.map .float) w.time = .error e) :
    (invoke args w).ending = endOfPlay (some e) := by
  obtain ⟨hasks, rom, hrom, rfl⟩ := h
  rw [invoke_play hasks, hrom]
  simp only [play, he, PlayReport.refused]

/-- A session goes on to show frames, never to take them back. -/
theorem size_le_follow (k : Option Int) (answers : List Bool) (l : Live) :
    l.frames.size ≤ (l.follow k answers).2.frames.size := by
  have htick (l : Live) : l.frames.size ≤ (l.onTick k).2.frames.size := by
    unfold Live.onTick
    split
    · exact Nat.le_refl _
    · split
      · exact Nat.le_refl _
      · dsimp only
        split
        · simp only [Live.present, Array.size_push, Nat.le_succ]
        · exact Nat.le_refl _
  induction answers generalizing l with
  | nil => exact Nat.le_refl _
  | cons due answers ih =>
    cases due with
    | false => exact ih l
    | true =>
      have hle := htick l
      rw [Live.follow]
      split
      · rename_i hl
        rw [hl] at hle
        exact Nat.le_trans hle (ih _)
      · rename_i hl
        rw [hl] at hle
        exact hle

/-- Once its clock is set, a session has a frame that it shows last. -/
theorem Starts.plays {clock : TickClock Float} {t : Time} (h : Starts args w .play o m)
    (hclock : startClock (o.rate.map .float) w.time = .ok (clock, t)) : ∃ due f, Plays args w o m due f := by
  have hsize := size_le_follow o.cyclesPerTick (clockAnswers t.cost clock t.now t.polls)
    (Live.start m (Path.ofString o.rom).name)
  obtain ⟨f, hf⟩ : ∃ f, ((Live.start m (Path.ofString o.rom).name).follow o.cyclesPerTick
      (clockAnswers t.cost clock t.now t.polls)).2.frames.back? = some f := by
    refine Option.ne_none_iff_exists'.mp fun hnone => ?_
    rw [Array.back?_eq_none_iff.mp hnone] at hsize
    exact Nat.not_succ_le_zero 0 hsize
  exact ⟨_, f, h, clock, t, hclock, rfl, hf⟩

section Plays
variable {due : Nat} {f : Frame}

/-- The failure of the batches of `due` ticks, if there is one. -/
def failureOf (o : Options) (m : Machine) (due : Nat) : Option Failure :=
  match o.cyclesPerTick with
  | none => if 0 < due then some (.missing .batch) else none
  | some k => (endOf (m.run (due * k) k)).1

theorem Plays.invoke (h : Plays args w o m due f) : ∃ e : Ended, e.live.frames.back? = some f ∧
    e.failure = failureOf o m due ∧
    (invoke args w).ending = endOfPlay (match (PlayReport.ofEnded w.console e).outcome with
      | .ok _ => none
      | .error e => some e) := by
  obtain ⟨⟨hasks, rom, hrom, rfl⟩, clock, t, hclock, rfl, hf⟩ := h
  let start := Live.start ((new .released w.random).load rom).2 (Path.ofString o.rom).name
  let answers := clockAnswers t.cost clock t.now t.polls
  let r := start.follow o.cyclesPerTick answers
  obtain ⟨slept, pollsLeft, hloop⟩ := loop_eq_follow o.cyclesPerTick t.cost clock #[] start t.now t.polls
  refine ⟨⟨r.2, r.1, slept, pollsLeft⟩, hf, ?_, ?_⟩
  · show r.1 = failureOf o start.machine (answers.count true)
    rcases hasks.cyclesPerTick_cases with hk | ⟨k, hpos, hk⟩
    · simp only [r, hk, failureOf, follow_none]
    · simp only [r, hk, failureOf, ← Int.natCast_mul]
      exact congrArg Prod.fst (Live.follow_machine hpos answers start)
  · rw [invoke_play hasks, hrom]
    simp only [play, hclock]
    rw [hloop]

/-- A session whose last frame is drawn ends as the batches of its due ticks. -/
theorem Plays.followed (h : Plays args w o m due f) (hd : w.console.Draws f) :
    (Cli.invoke args w).ending = endOfPlay (failureOf o m due) := by
  obtain ⟨e, hf, hfailure, hinvoke⟩ := h.invoke
  obtain ⟨lines, hlines⟩ := hd
  rw [hinvoke, outcome_of_drawn hf hlines, hfailure]
  cases failureOf o m due <;> rfl

theorem Plays.refused {d : DrawError} (h : Plays args w o m due f) (hd : w.console.draw f = .error d) :
    (Cli.invoke args w).ending = (none, some (.screen d)) := by
  obtain ⟨e, hf, -, hinvoke⟩ := h.invoke
  rw [hinvoke, outcome_of_refused hf hd]
  rfl

end Plays

/-! ### All ends -/

theorem Ends.invoke (h : Ends args w x) : (invoke args w).ending = (x, none) := by
  cases h with
  | help h => simp only [Cli.invoke, h, Outcome.ending]
  | invalid h => simp only [Cli.invoke, h, Outcome.ending]
  | noCommand h ht hc =>
    obtain ⟨t, ht⟩ := Option.ne_none_iff_exists'.mp ht
    simp only [Cli.invoke, h, ht, hc, Outcome.ending]
  | @rejected c o e h hrom =>
    cases c with
    | run =>
      rw [invoke_run h, hrom]
      rfl
    | play =>
      rw [invoke_play h, hrom]
      rfl
  | ran h hend hd =>
    obtain ⟨lines, hlines⟩ := hd
    obtain ⟨summary, log, hshows⟩ := h.shows hend
    rw [h.invoke_run, hshows, showing_of_ok hlines]
    rfl
  | played h hend hd =>
    rw [h.followed hd]
    cases hend with
    | interrupted hk hc => simp only [failureOf, hk, ← Int.natCast_mul, run_eq_ok_iff.mpr ⟨hc, rfl⟩, endOf, endOfPlay]
    | interruptedIdle hdue =>
      rcases h.1.1.cyclesPerTick_cases with hk | ⟨k, -, hk⟩
      · simp only [failureOf, hk, hdue, Nat.lt_irrefl, ↓reduceIte, endOfPlay]
      · simp only [failureOf, hk, hdue, ← Int.natCast_mul, Nat.zero_mul, run_eq_ok_iff.mpr ⟨completes_zero _ _, rfl⟩, endOf,
          endOfPlay]
    | failed hk hj hc hf =>
      obtain ⟨f, hrun, hreported⟩ := hf.run hc hj
      simp only [failureOf, hk, ← Int.natCast_mul, hrun, endOf, endOfPlay, Failure.isReported, hreported, ↓reduceIte]

theorem Uncaught.invoke (h : Uncaught args w e) : (invoke args w).ending = (none, some e) := by
  cases h with
  | logLevel h ht => simp only [Cli.invoke, h, ht, Outcome.ending]
  | @nulInPath c o h hpath =>
    have hread : Rom.read w.storage o.rom = .error .nulInPath := Rom.read_of_nul w.storage hpath
    cases c with
    | run =>
      rw [invoke_run h, hread]
      rfl
    | play =>
      rw [invoke_play h, hread]
      rfl
  | maxCycles h hn =>
    rw [h.invoke_run, hn]
    rfl
  | ticking h hn hk hf =>
    obtain ⟨n, hpos, hn⟩ := h.1.maxCycles_cases.resolve_left hn
    rw [h.invoke_run, hn, hk, outcome_of_lacking hpos hf]
    rfl
  | rate h hr =>
    have hclock : startClock (Option.map Rate.float none) w.time = .error (.missing .rate) := rfl
    rw [h.refused (by rw [hr]; exact hclock)]
    rfl
  | rateNotPositive h hr hle =>
    rw [h.refused (by rw [hr]; exact startClock_of_not_positive hle)]
    rfl
  | interrupted h hr hle hpolls =>
    rw [h.refused (by rw [hr]; exact (startClock_of_positive hle).trans (by rw [hpolls]))]
    rfl
  | batch h hk hdue hd =>
    simp only [h.followed hd, failureOf, hk, hdue, ↓reduceIte]
    rfl
  | runScreen h hend hd =>
    obtain ⟨summary, log, hshows⟩ := h.shows hend
    rw [h.invoke_run, hshows, showing_of_error hd]
    rfl
  | playScreen h hd => exact h.refused hd

/-- Where its steps end, a run ends, or by the refusal of its screen. -/
theorem Starts.ran {last : Machine} {code : Nat} (h : Starts args w .run o m) (hend : RunEnd o m last code) :
    (∃ x, Ends args w x) ∨ ∃ e, Uncaught args w e := by
  rcases w.console.draws_or_refuses (.of last o.rom) with hd | ⟨d, hd⟩
  · exact .inl ⟨_, .ran h hend hd⟩
  · exact .inr ⟨_, .runScreen h hend hd⟩

theorem Starts.run_ends_or_uncaught (h : Starts args w .run o m) : (∃ x, Ends args w x) ∨ ∃ e, Uncaught args w e := by
  rcases h.1.maxCycles_cases with hn | ⟨n, -, hn⟩
  · exact .inr ⟨_, .maxCycles h hn⟩
  have hgiven : o.maxCycles ≠ none := by rw [hn]; exact nofun
  rcases h.1.cyclesPerTick_cases with hk | ⟨k, -, hk⟩
  · by_cases hf : m.FailsOnStack
    · exact h.ran (.failedAtOnce hgiven hf)
    · exact .inr ⟨_, .ticking h hgiven hk hf⟩
  · rcases run_cases m k n with ⟨hc, -⟩ | ⟨j, f, hj, hc, hstep, -⟩
    · exact h.ran (.completed hn hk hc)
    · exact h.ran (.failed hn hk hj hc (failsOnStack_of_step hstep).1)

theorem Plays.ends_or_uncaught {due : Nat} {f : Frame} (h : Plays args w o m due f) :
    (∃ x, Ends args w x) ∨ ∃ e, Uncaught args w e := by
  rcases w.console.draws_or_refuses f with hd | ⟨d, hd⟩
  · rcases h.1.1.cyclesPerTick_cases with hk | ⟨k, -, hk⟩
    · -- Without a due tick nobody asks for the steps of a batch.
      rcases Nat.eq_zero_or_pos due with hdue | hdue
      · exact .inl ⟨_, .played h (.interruptedIdle hdue) hd⟩
      · exact .inr ⟨_, .batch h hk hdue hd⟩
    · rcases run_cases m k (due * k) with ⟨hc, -⟩ | ⟨j, f, hj, hc, hstep, -⟩
      · exact .inl ⟨_, .played h (.interrupted hk hc) hd⟩
      · exact .inl ⟨_, .played h (.failed hk hj hc (failsOnStack_of_step hstep).1) hd⟩
  · exact .inr ⟨_, .playScreen h hd⟩

theorem Starts.play_ends_or_uncaught (h : Starts args w .play o m) : (∃ x, Ends args w x) ∨ ∃ e, Uncaught args w e := by
  cases hr : o.rate with
  | none => exact .inr ⟨_, .rate h hr⟩
  | some r =>
    by_cases hle : r ≤ 0
    · exact .inr ⟨_, .rateNotPositive h hr hle⟩
    have hclock : startClock (some (.float r)) w.time = _ := startClock_of_positive hle
    cases hpolls : w.time.polls with
    | zero => exact .inr ⟨_, .interrupted h hr hle hpolls⟩
    | succ polls =>
      rw [hpolls] at hclock
      obtain ⟨due, f, hplays⟩ := h.plays (by rw [hr]; exact hclock)
      exact hplays.ends_or_uncaught

theorem ends_or_uncaught (args : List String) (w : Surroundings) : (∃ x, Ends args w x) ∨ ∃ e, Uncaught args w e := by
  cases hparse : parse args with
  | error stop =>
    cases stop with
    | help => exact .inl ⟨_, .help hparse⟩
    | usage program message => exact .inl ⟨_, .invalid hparse⟩
  | ok s =>
    by_cases ht : s.threshold = none
    · exact .inr ⟨_, .logLevel hparse ht⟩
    cases hc : s.command with
    | none => exact .inl ⟨_, .noCommand hparse ht hc⟩
    | some co =>
      obtain ⟨c, o⟩ := co
      have hasks : Asks args c o := ⟨s, hparse, ht, hc⟩
      rcases read_cases w.storage o.rom with ⟨rom, hrom⟩ | ⟨e, hrom⟩ | ⟨hpath, -⟩
      · have hstarts : Starts args w c o ((new .released w.random).load rom).2 := ⟨hasks, rom, hrom, rfl⟩
        cases c with
        | run => exact hstarts.run_ends_or_uncaught
        | play => exact hstarts.play_ends_or_uncaught
      · exact .inl ⟨_, .rejected hasks hrom⟩
      · exact .inr ⟨_, .nulInPath hasks hpath⟩

/-- No option is without a value unless an argument gives it the separator for one. -/
theorem Uncaught.givesSeparator {v : MissingValue} (h : Uncaught args w (.missing v)) : ∃ a ∈ args, GivesSeparator a := by
  refine Classical.byContradiction fun hnone => ?_
  have hgiven : ∀ a ∈ args, ¬ GivesSeparator a := fun a ha hsep => hnone ⟨a, ha, hsep⟩
  cases h with
  | logLevel h ht => exact (parse_valid h).threshold hgiven ht
  | maxCycles h hn => exact (h.1.valid.given hgiven).1 hn
  | ticking h _ hk => exact (h.1.valid.given hgiven).2.1 hk
  | batch h hk => exact (h.1.1.valid.given hgiven).2.1 hk
  | rate h hr => exact (h.1.valid.given hgiven).2.2 hr

/-- Any command line ends in one of the ways that are listed, with the exit code that is listed for it, or by one of the failures
that are listed and without an exit code. An option lacks its value in a failure only if an argument gives the separator for
one. -/
theorem invoke_ends_or_fails (args : List String) (w : Surroundings) :
    ((∃ x, Ends args w x) ∨ ∃ e, Uncaught args w e) ∧
    (∀ x, Ends args w x ↔ (invoke args w).exit = x ∧ (invoke args w).failure = none) ∧
    (∀ e, Uncaught args w e ↔ (invoke args w).exit = none ∧ (invoke args w).failure = some e) ∧
    ∀ v, Uncaught args w (.missing v) → ∃ a ∈ args, GivesSeparator a := by
  have hall := ends_or_uncaught args w
  have hends (x : Option Nat) (h : Ends args w x) : (invoke args w).exit = x ∧ (invoke args w).failure = none :=
    Prod.mk.inj h.invoke
  have hfails (e : Failure) (h : Uncaught args w e) : (invoke args w).exit = none ∧ (invoke args w).failure = some e :=
    Prod.mk.inj h.invoke
  refine ⟨hall, fun x => ⟨hends x, ?_⟩, fun e => ⟨hfails e, ?_⟩, fun v h => h.givesSeparator⟩
  · rintro ⟨rfl, hnone⟩
    rcases hall with ⟨x, h⟩ | ⟨e, h⟩
    · rw [(hends x h).1]
      exact h
    · rw [(hfails e h).2] at hnone
      cases hnone
  · rintro ⟨-, hsome⟩
    rcases hall with ⟨x, h⟩ | ⟨e', h⟩
    · rw [(hends x h).2] at hsome
      cases hsome
    · rw [(hfails e' h).2] at hsome
      cases hsome
      exact h

/-- A rate of zero is taken for a valid argument, and no clock can be set to it. -/
theorem play_rate_zero_uncaught :
    let program : List UInt8 := [0xA0, 0x50, 0xD0, 0x15, 0x12, 0x04]
    let w : Surroundings := ⟨⟨[(["a"], .file program)]⟩, .ofScript #[], ⟨0, 0, 9⟩, .plain 100⟩
    let out := invoke ["play", "a", "--hz", "0"] w
    out.exit = none ∧ ∃ r ≤ 0, out.failure = some (.rateNotPositive (.float r)) := by
  intro program w out
  have hparsed : (parse ["play", "a", "--hz", "0"]).toOption.any (fun s => s.threshold.isSome &&
      s.command.any fun co => co.1 = .play && co.2.rom = "a" && co.2.rate.any fun r => r ≤ 0) = true := by
    decide +kernel
  simp only [Option.any_eq_true, Bool.and_eq_true, decide_eq_true_eq, Option.isSome_iff_ne_none] at hparsed
  obtain ⟨s, hs, ht, ⟨c, o⟩, hc, ⟨rfl, hrom⟩, r, hr, hle⟩ := hparsed
  have hparse : parse ["play", "a", "--hz", "0"] = .ok s := by
    cases h : parse ["play", "a", "--hz", "0"] <;> rw [h] at hs <;> cases hs
    rfl
  have hread : Rom.read w.storage o.rom = .ok program := by
    rw [hrom, Rom.read_eq _ (by decide), Path.ofString_a]
    rfl
  have huncaught : Uncaught ["play", "a", "--hz", "0"] w (.rateNotPositive (.float r)) :=
    .rateNotPositive ⟨⟨s, hparse, ht, hc⟩, program, hread, rfl⟩ hr hle
  obtain ⟨hexit, hfailure⟩ := Prod.mk.inj huncaught.invoke
  exact ⟨hexit, r, hle, hfailure⟩

end Chip8.Cli

import Chip8.Proofs.Pacing
import Chip8.Proofs.Picture
import Chip8.Session.Headless
import Chip8.View.Panel

/-! # What a headless run reports

A machine tells of the steps that it made: how many they were, and which words were none (`told_paced`). The report of a run
is therefore given by the step that ended it (`runLoaded_eq`): a run ends with its last step, or before the first one
that the call stack refuses. What is printed of it is then up to the console, which may refuse the last screen for its
title. -/

namespace Chip8

namespace Machine
variable {i : Instruction} {m m₁ m' : Machine} {a : MemoryAddress} {r : Option Instruction} {k : Int} {n : Nat}
  {words : List Unrecognized}

/-- The word at the program counter, if it is no instruction. -/
def unrecognizedHere (m : Machine) : Option Unrecognized :=
  if m.fetched = none then some ⟨m.pc.val, m.memory.readWord m.pc⟩ else none

theorem unrecognizedHere_of_none (h : m.fetched = none) :
    m.unrecognizedHere = some ⟨m.pc.val, m.memory.readWord m.pc⟩ := if_pos h

theorem unrecognizedHere_of_some (h : m.fetched = some i) : m.unrecognizedHere = none := by
  rw [unrecognizedHere, h]
  rfl

/-- The words that the first `n` steps of a paced history skip. -/
def skippedWords (m : Machine) (k : Int) (n : Nat) : List Unrecognized :=
  (List.range n).filterMap fun j => (m.after (paced k j)).unrecognizedHere

theorem skippedWords_succ (m : Machine) (k : Int) (n : Nat) :
    m.skippedWords k (n + 1) = m.skippedWords k n ++ (m.after (paced k n)).unrecognizedHere.toList := by
  rw [skippedWords, skippedWords, List.range_succ, List.filterMap_append]
  cases h : (m.after (paced k n)).unrecognizedHere <;> simp [h]

theorem skippedWords_ne_nil : m.skippedWords k n ≠ [] ↔ ∃ j < n, (m.after (paced k j)).fetched = none := by
  simp only [skippedWords, ne_eq, List.filterMap_eq_nil_iff, List.mem_range, unrecognizedHere, ite_eq_right_iff, reduceCtorEq,
    imp_false, Classical.not_forall, Classical.not_not, exists_prop]

/-- What `m'` tells of the `n` steps since `m`, which skipped `words`. -/
structure Told (m : Machine) (words : List Unrecognized) (n : Nat) (m' : Machine) : Prop where
  cycles : m'.cycles = m.cycles + n
  unrecognized : m'.unrecognized = m.unrecognized + words.length
  last : m'.lastUnrecognized = words.getLast?.or m.lastUnrecognized
  notices : m'.notices.toList = m.notices.toList ++ words.map .unrecognized

theorem told_self (m : Machine) : m.Told [] 0 m where
  cycles := rfl
  unrecognized := rfl
  last := rfl
  notices := (List.append_nil _).symm

theorem Effect.tells_nothing (h : Effect i m a m') :
    m'.unrecognized = m.unrecognized ∧ m'.lastUnrecognized = m.lastUnrecognized ∧ m'.notices = m.notices := by
  cases h <;> exact ⟨rfl, rfl, rfl⟩

theorem Told.step (h : m.Told words n m₁) (hs : Step m₁ r m') : m.Told (words ++ m₁.unrecognizedHere.toList) (n + 1) m' := by
  have hcycles : m'.cycles = m.cycles + (n + 1) := by rw [hs.cycles, h.cycles, Nat.add_assoc]
  cases hs with
  | unrecognized hf =>
    rw [unrecognizedHere_of_none hf]
    refine ⟨hcycles, ?_, ?_, ?_⟩
    · simp only [countStep, skipUnrecognized, h.unrecognized, Option.toList_some, List.length_append, List.length_singleton,
        Nat.add_assoc]
    · simp only [countStep, skipUnrecognized, Option.toList_some, List.getLast?_concat, Option.some_or]
    · simp only [countStep, skipUnrecognized, Array.toList_push, h.notices, Option.toList_some, List.map_append, List.map_cons,
        List.map_nil, List.append_assoc]
  | executed hf he =>
    -- An instruction tells nothing but that a step was made.
    obtain ⟨hcount, hlast, hnotices⟩ := he.tells_nothing
    rw [unrecognizedHere_of_some hf, Option.toList_none, List.append_nil]
    exact ⟨hcycles, hcount.trans h.unrecognized, hlast.trans h.last, (congrArg Array.toList hnotices).trans h.notices⟩

theorem told_paced (h : m.Completes k n) : m.Told (m.skippedWords k n) n (m.after (paced k n)) := by
  induction n with
  | zero => exact told_self m
  | succ n ih =>
    obtain ⟨hc, r, m', hstep⟩ := completes_succ.mp h
    have hs := step_eq_ok.mp hstep
    have htold := (ih hc).step hs
    rw [after_paced_succ, hs.stepped, skippedWords_succ]
    split
    · -- A tick tells nothing.
      exact ⟨htold.cycles, htold.unrecognized, htold.last, htold.notices⟩
    · exact htold

/-- A run of `n` steps ends after `made` of them: after the last one, or before one that fails. -/
inductive RunsTo (m : Machine) (k : Int) (n : Nat) : (made : Nat) → Option Fault → Prop
  | completed (hc : m.Completes k n) : RunsTo m k n n none
  | failed {j : Nat} {f : Fault} (hj : j < n) (hc : m.Completes k j)
    (hstep : (m.after (paced k j)).step = .error f (m.after (paced k j))) : RunsTo m k n j (some f)

end Machine

theorem Path.ofString_a : ofString "a" = ⟨"", ["a"]⟩ := by
  have hsplit : "a".splitOn "/" = ["a"] := by
    rw [String.splitOn, if_neg (by decide), String.splitOnAux, if_neg (by decide), if_neg (by decide), String.splitOnAux,
      if_pos (by decide)]
    decide
  rw [ofString, hsplit]
  rfl

namespace Rom
variable {path : String} {content : Except FileError (List UInt8)} {rom : List UInt8}

theorem length_le_of_ofRead (h : ofRead path content = .ok rom) : rom.length ≤ Machine.programSpace := by
  cases content with
  | error e => cases h
  | ok content =>
    simp only [ofRead, check] at h
    split at h
    · cases h
    · split at h
      · cases h
      · cases h
        omega

theorem read_of_nul (st : Storage) (h : '\x00' ∈ path.toList) : read st path = .error .nulInPath := by
  simp only [read, List.contains_eq_mem, h, decide_true, ↓reduceIte]

theorem read_eq (st : Storage) (h : '\x00' ∉ path.toList) :
    read st path = (ofRead path (st.read (.ofString path))).mapError .rom := by
  simp only [read, List.contains_eq_mem, h, decide_false, Bool.false_eq_true, ↓reduceIte]

end Rom

namespace View.Console
variable {console : Console} {f : Frame}

/-- The console does not refuse the frame. -/
def Draws (console : Console) (f : Frame) : Prop := ∃ lines, console.draw f = .ok lines

theorem draws_or_refuses (console : Console) (f : Frame) : console.Draws f ∨ ∃ e, console.draw f = .error e := by
  cases h : console.draw f with
  | ok lines => exact .inl ⟨lines, h⟩
  | error e => exact .inr ⟨e, rfl⟩

theorem not_draws_of_error {e : DrawError} (h : console.draw f = .error e) : ¬ console.Draws f := by
  rintro ⟨lines, hlines⟩
  rw [h] at hlines
  cases hlines

end View.Console

namespace Session
open Machine View
variable {title : String} {m : Machine} {k : Int} {n : Nat}

/-- A machine that has not told anything yet. -/
structure Untold (m : Machine) : Prop where
  cycles : m.cycles = 0
  unrecognized : m.unrecognized = 0
  last : m.lastUnrecognized = none
  notices : m.notices = #[]

theorem untold_load (keypad : Keypad) (random : RandomSource) {rom : List UInt8} (h : rom.length ≤ programSpace) :
    Untold ((new keypad random).load rom).2 := by
  have hkept : ¬ (rom.take programSpace).length < rom.length := by rw [List.length_take]; omega
  simp only [load, hkept, ↓reduceIte]
  exact ⟨rfl, rfl, rfl, rfl⟩

/-- The lines printed after the screen for `made` steps that skipped `words`. -/
def summaryOver (words : List Unrecognized) (made : Nat) : List String :=
  ("Ran " ++ toString made ++ " cycles.") :: words.getLast?.toList.map fun u =>
    "  " ++ toString words.length ++ " unrecognized opcode(s), last: " ++ u.text

/-- The log of steps that skipped `words`. -/
def warningsOver (words : List Unrecognized) : List LogLine := words.map fun u => ⟨.warning, .processor, u.text⟩

/-- The log of `made` steps from `m`, and of the fault in the step after them if there was one. -/
def logOver (m : Machine) (k : Int) (made : Nat) (fault : Option Fault) : List LogLine :=
  warningsOver (m.skippedWords k made) ++ fault.toList.map fun f =>
    ⟨.error, .command, f.message ++ " (PC=0x" ++ Text.hex 3 (m.after (paced k made)).pc.val ++
      ", cycle " ++ toString made ++ ")"⟩

/-- The exit code of a run that shows its last screen. -/
def codeOf (fault : Option Fault) : Nat := if fault.isSome then 1 else 0

/-- The report of `made` steps from `m`, and of the fault in the step after them if there was one. -/
def reportOver (console : Console) (title : String) (m : Machine) (k : Int) (made : Nat) (fault : Option Fault) :
    Report :=
  .showing console (.of (m.after (paced k made)) title) (codeOf fault) (summaryOver (m.skippedWords k made) made)
    (logOver m k made fault)

theorem summaryOf_paced (hm : Untold m) (h : m.Completes k n) :
    Report.summaryOf (m.after (paced k n)) = summaryOver (m.skippedWords k n) n := by
  have ht := told_paced h
  rw [Report.summaryOf, summaryOver, ht.cycles, ht.unrecognized, ht.last, hm.cycles, hm.unrecognized, hm.last, Nat.zero_add,
    Nat.zero_add, Option.or_none]
  cases (m.skippedWords k n).getLast? <;> rfl

theorem logOf_paced (hm : Untold m) (h : m.Completes k n) :
    Report.logOf (m.after (paced k n)) = warningsOver (m.skippedWords k n) := by
  rw [Report.logOf, (told_paced h).notices, hm.notices, List.nil_append, List.map_map]
  rfl

/-- A run is reported as its last step leaves it, or as the first step that failed found it. -/
theorem runLoaded_eq (console : Console) (title : String) (hm : Untold m) (k : Int) (n : Nat) :
    ∃ made fault, m.RunsTo k n made fault ∧
      runLoaded console title m (some n) (some k) = reportOver console title m k made fault := by
  rcases run_cases m k n with ⟨hc, hrun⟩ | ⟨j, f, hj, hc, hstep, hrun⟩
  · refine ⟨n, none, .completed hc, ?_⟩
    simp only [runLoaded, hrun, Report.ofRun, summaryOf_paced hm hc, logOf_paced hm hc, reportOver, logOver, Option.toList_none,
      List.map_nil, List.append_nil]
    rfl
  · refine ⟨j, some f, .failed hj hc hstep, ?_⟩
    have hcycles : (m.after (paced k j)).cycles = j := by rw [(told_paced hc).cycles, hm.cycles, Nat.zero_add]
    simp only [runLoaded, hrun, Report.ofRun, Report.faultLine, summaryOf_paced hm hc, logOf_paced hm hc, hcycles, reportOver,
      logOver, Option.toList_some, List.map_cons, List.map_nil]
    rfl

/-! ### What the report says -/

/-- What is reported of `made` steps from `m` and of the fault after them, if there is one. -/
structure Reported (console : Console) (title : String) (m : Machine) (k : Int) (made : Nat) (fault : Option Fault)
    (r : Report) : Prop where
  log : r.log = logOver m k made fault
  /-- The words that were skipped are in the summary if there are any. -/
  skipped : 1 < (summaryOver (m.skippedWords k made) made).length ↔ ∃ j < made, (m.after (paced k j)).fetched = none
  /-- The screen is a frame with the title, the pixels and the status line of the last machine, as the console draws it. If
  the console refuses it, nothing is printed, and this is the error. -/
  screen : ∃ f : Frame, f.title = title ∧ (∀ s, f.lines = picture s ↔ s.rows = (m.after (paced k made)).screen.rows) ∧
    f.status = status (m.after (paced k made)) ∧
    (∀ lines, console.draw f = .ok lines → r.outcome = .ok (codeOf fault) ∧ r.screen = some lines ∧
      r.summary = summaryOver (m.skippedWords k made) made) ∧
    ∀ e, console.draw f = .error e → r.outcome = .error (.screen e) ∧ r.screen = none ∧ r.summary = []

/-- `r` is what a run of `n` steps from `m` is to report. -/
structure Reports (console : Console) (title : String) (m : Machine) (k : Int) (n : Nat) (r : Report) : Prop where
  succeeds : r.outcome = .ok 0 ↔ m.Completes k n ∧ console.Draws (.of (m.after (paced k n)) title)
  fails : r.outcome = .ok 1 ↔ ∃ j < n, m.Completes k j ∧ (m.after (paced k j)).FailsOnStack ∧
    console.Draws (.of (m.after (paced k j)) title)
  /-- The steps before the end are told, and a fault with the instruction that it was found at. -/
  told : ∃ made fault, m.RunsTo k n made fault ∧ Reported console title m k made fault r

theorem one_lt_length_summaryOver (words : List Unrecognized) (made : Nat) :
    1 < (summaryOver words made).length ↔ words ≠ [] := by
  rcases List.eq_nil_or_concat words with rfl | ⟨words, u, rfl⟩
  · simp [summaryOver]
  · simp [summaryOver]

section Showing
variable {console : Console} {f : Frame} {lines : List String} {e : DrawError} {code : Nat} {summary : List String}
  {log : List LogLine}

theorem showing_of_ok (h : console.draw f = .ok lines) :
    Report.showing console f code summary log = ⟨.ok code, true, some lines, summary, log⟩ := by
  simp only [Report.showing, h]

theorem showing_of_error (h : console.draw f = .error e) :
    Report.showing console f code summary log = ⟨.error (.screen e), true, none, [], log⟩ := by
  simp only [Report.showing, h]

theorem log_showing : (Report.showing console f code summary log).log = log := by
  unfold Report.showing
  split <;> rfl

theorem outcome_showing {code' : Nat} :
    (Report.showing console f code summary log).outcome = .ok code' ↔ code = code' ∧ console.Draws f := by
  rcases console.draws_or_refuses f with ⟨lines, h⟩ | ⟨e, h⟩
  · rw [showing_of_ok h, Except.ok.injEq]
    exact ⟨fun hcode => ⟨hcode, lines, h⟩, And.left⟩
  · rw [showing_of_error h]
    exact iff_of_false nofun fun hdraws => Console.not_draws_of_error h hdraws.2

end Showing

theorem reported_reportOver (console : Console) (title : String) (m : Machine) (k : Int) (made : Nat) (fault : Option Fault) :
    Reported console title m k made fault (reportOver console title m k made fault) where
  log := log_showing
  skipped := (one_lt_length_summaryOver (m.skippedWords k made) made).trans skippedWords_ne_nil
  screen := by
    refine ⟨.of (m.after (paced k made)) title, rfl, fun s => picture_eq_iff.trans eq_comm, rfl, fun lines h => ?_,
      fun e h => ?_⟩
    · rw [reportOver, showing_of_ok h]
      exact ⟨rfl, rfl, rfl⟩
    · rw [reportOver, showing_of_error h]
      exact ⟨rfl, rfl, rfl⟩

theorem reports_runLoaded (console : Console) (title : String) (hm : Untold m) (k : Int) (n : Nat) :
    Reports console title m k n (runLoaded console title m (some n) (some k)) := by
  obtain ⟨made, fault, hruns, heq⟩ := runLoaded_eq console title hm k n
  rw [heq]
  refine ⟨?_, ?_, made, fault, hruns, reported_reportOver console title m k made fault⟩
  · rw [reportOver, outcome_showing]
    cases hruns with
    | completed hc => exact and_congr_left fun _ => iff_of_true rfl hc
    | failed hj _ hstep =>
      refine iff_of_false (fun h => absurd h.1 Nat.one_ne_zero) fun h => ?_
      exact absurd (h.1.le_of_fails hstep) (Nat.not_le_of_lt hj)
  · rw [reportOver, outcome_showing]
    cases hruns with
    | completed hc =>
      refine iff_of_false (fun h => absurd h.1 Nat.zero_ne_one) ?_
      rintro ⟨j, hj, -, hfails, -⟩
      obtain ⟨f, hstep⟩ := hfails.step
      exact absurd (hc.le_of_fails hstep) (Nat.not_le_of_lt hj)
    | failed hj hc hstep =>
      refine ⟨fun h => ⟨made, hj, hc, (failsOnStack_of_step hstep).1, h.2⟩, ?_⟩
      rintro ⟨i, -, hci, hfails, hdraws⟩
      -- There is only one first step that fails.
      obtain ⟨f', hstep'⟩ := hfails.step
      obtain rfl : i = made := Nat.le_antisymm (hci.le_of_fails hstep) (hc.le_of_fails hstep')
      exact ⟨rfl, hdraws⟩

/-- A run shows its last screen, or it ends by the refusal of the console. -/
theorem Reported.shown_or_refused {console : Console} {made : Nat} {fault : Option Fault} {r : Report}
    (h : Reported console title m k made fault r) :
    (r.outcome = .ok (codeOf fault) ∧ ∃ lines, r.screen = some lines) ∨ ∃ e, r.outcome = .error (.screen e) := by
  obtain ⟨f, -, -, -, hdrawn, hrefused⟩ := h.screen
  cases hdraw : console.draw f with
  | ok lines =>
    obtain ⟨hcode, hscreen, -⟩ := hdrawn lines hdraw
    exact .inl ⟨hcode, lines, hscreen⟩
  | error e => exact .inr ⟨e, (hrefused e hdraw).1⟩

theorem Reports.not_completes {console : Console} {r : Report} (h : Reports console title m k n r)
    (hcode : r.outcome = .ok 1) : ¬ m.Completes k n := by
  intro hc
  obtain ⟨j, hj, -, hfails, -⟩ := h.fails.mp hcode
  obtain ⟨f, hstep⟩ := hfails.step
  exact absurd (hc.le_of_fails hstep) (Nat.not_le_of_lt hj)

/-- What a run that failed reports, a longer one reports. -/
theorem runLoaded_mono {console : Console} {n' : Nat} (h : ¬ m.Completes k n) (hn : n ≤ n') :
    runLoaded console title m (some n') (some k) = runLoaded console title m (some n) (some k) := by
  rcases run_cases m k n with ⟨hc, -⟩ | ⟨j, f, -, -, -, hrun⟩
  · exact absurd hc h
  · simp only [runLoaded, hrun, run_error_mono hrun hn]

/-! ### What is read of a file -/

section Reading
variable {console : Console} {st : Storage} {path : String} {random : RandomSource} {maxCycles cyclesPerTick : Option Int}

theorem runHeadless_of_nul (hpath : '\x00' ∈ path.toList) :
    runHeadless console path (Rom.read st path) random maxCycles cyclesPerTick = .unread .nulInPath := by
  rw [Rom.read_of_nul st hpath]
  rfl

theorem runHeadless_of_rejected {e : RomError} (hpath : '\x00' ∉ path.toList)
    (h : Rom.ofRead path (st.read (.ofString path)) = .error e) :
    runHeadless console path (Rom.read st path) random maxCycles cyclesPerTick = .unread (.rom e) := by
  rw [Rom.read_eq st hpath, h]
  rfl

theorem runHeadless_of_accepted {rom : List UInt8} (hpath : '\x00' ∉ path.toList)
    (h : Rom.ofRead path (st.read (.ofString path)) = .ok rom) :
    runHeadless console path (Rom.read st path) random maxCycles cyclesPerTick =
      runLoaded console path ((new .released random).load rom).2 maxCycles cyclesPerTick := by
  rw [Rom.read_eq st hpath, h]
  rfl

end Reading

/-- From the content of a file, for any number of cycles, with a tick after every `k`-th, on any console: a file that is rejected
is reported by a log line and nothing else. Any other run shows its last screen and then its summary. It succeeds if all its
steps complete; else it reports the first call on a full stack or return on an empty one, with the steps before it, and a
longer run reports the same. If the console refuses the screen, the run ends by that, with neither screen nor summary. There
is no other end, except that no file can have a name with a NUL. -/
theorem runHeadless_reports (console : Console) (st : Storage) (path : String) (random : RandomSource) (n k : Nat) :
    let read := Rom.ofRead path (st.read (.ofString path))
    let report (n : Nat) := runHeadless console path (Rom.read st path) random (some n) (some k)
    ('\x00' ∈ path.toList → report n = .unread .nulInPath) ∧
    ('\x00' ∉ path.toList →
      ((report n).outcome = .ok 1 ∧ (report n).screen = none ∧ (report n).summary = [] ↔ ∃ e, read = .error e) ∧
      (∀ e, read = .error e → (report n).log = [⟨.error, .command, e.message⟩]) ∧
      ∀ rom, read = .ok rom →
        let m := ((new .released random).load rom).2
        Reports console path m k n (report n) ∧ ∀ n' ≥ n, ¬ m.Completes k n → report n' = report n) ∧
    (∀ n' ≥ n, (report n).outcome = .ok 1 → report n' = report n) ∧
    ∀ e, (report n).outcome = .error e → e = .nulInPath ∨ ∃ d, e = .screen d := by
  intro read report
  by_cases hpath : '\x00' ∈ path.toList
  · have hreport (n : Nat) : report n = .unread .nulInPath := runHeadless_of_nul hpath
    refine ⟨fun _ => hreport n, fun h => absurd hpath h, fun n' _ _ => ?_, fun e he => .inl ?_⟩
    · rw [hreport, hreport]
    · rw [hreport] at he
      cases he
      rfl
  cases h : read with
  | error e =>
    have hreport (n : Nat) : report n = .unread (.rom e) := runHeadless_of_rejected hpath h
    refine ⟨fun h => absurd h hpath, fun _ => ⟨iff_of_true ?_ ⟨e, rfl⟩, ?_, ?_⟩, fun n' _ _ => ?_, fun e' he' => ?_⟩
    · rw [hreport]
      exact ⟨rfl, rfl, rfl⟩
    · rintro _ ⟨⟩
      rw [hreport]
      rfl
    · rintro _ ⟨⟩
    · rw [hreport, hreport]
    · rw [hreport] at he'
      cases he'
  | ok rom =>
    let m := ((new .released random).load rom).2
    have hreport (n : Nat) : report n = runLoaded console path m (some n) (some k) := runHeadless_of_accepted hpath h
    have hm : Untold m := untold_load .released random (Rom.length_le_of_ofRead h)
    have hreports : Reports console path m k n (report n) := hreport n ▸ reports_runLoaded console path hm k n
    have hmono (n' : Nat) (hn : n' ≥ n) (hfail : ¬ m.Completes k n) : report n' = report n := by
      rw [hreport, hreport]
      exact runLoaded_mono hfail hn
    obtain ⟨made, fault, -, htold⟩ := hreports.told
    refine ⟨fun h => absurd h hpath, fun _ => ⟨iff_of_false ?_ nofun, nofun, ?_⟩,
      fun n' hn hcode => hmono n' hn (hreports.not_completes hcode), fun e he => .inr ?_⟩
    · rintro ⟨hcode, hscreen, -⟩
      rcases htold.shown_or_refused with ⟨-, lines, hshown⟩ | ⟨e, hrefused⟩
      · rw [hshown] at hscreen
        cases hscreen
      · rw [hrefused] at hcode
        cases hcode
    · rintro _ ⟨⟩
      exact ⟨hreports, hmono⟩
    · rcases htold.shown_or_refused with ⟨hcode, -⟩ | ⟨d, hrefused⟩
      · rw [hcode] at he
        cases he
      · rw [hrefused] at he
        cases he
        exact ⟨d, rfl⟩

/-- A panel with a title that is no markup is refused, whatever is in it. -/
theorem draw_plain_of_error {f : Frame} {e : DrawError} (h : titleText f.title = .error e) (width : Nat) :
    (Console.plain width).draw f = .error e := by
  have hne : f.title.isEmpty = false := by
    cases hempty : f.title.isEmpty with
    | false => rfl
    | true =>
      rw [String.isEmpty_iff.mp hempty] at h
      cases h
  simp only [Console.plain, edgeTitle, hne, Bool.false_eq_true, ↓reduceIte, h]
  rfl

/-- A program that goes on for ever. -/
def jumpToItself : List UInt8 := [0x12, 0x00]

theorem completes_jumpToItself : ((new .released (.ofScript #[])).load jumpToItself).2.Completes 10 2 := by
  let m := ((new .released (.ofScript #[])).load jumpToItself).2
  have hjump : ∀ j < 2, (m.after (paced 10 j)).fetched = some { op := .jp, word := 0x1200, addr := 0x200 } := by
    decide +kernel
  intro j hj
  exact ⟨_, _, (Step.executed (hjump j hj) (.jp rfl)).step⟩

/-- A name with a closing tag for which no tag is open is no title: the run completes, and neither its screen nor its summary is
printed. -/
theorem runHeadless_refused :
    let report := runHeadless (.plain 100) "dir[/game].ch8" (.ok jumpToItself) (.ofScript #[]) (some 2) (some 10)
    ((new .released (.ofScript #[])).load jumpToItself).2.Completes 10 2 ∧ report.screen = none ∧ report.summary = [] ∧
      report.outcome = .error (.screen (markupError "closing tag '[/game]' at position 3 doesn't match any open tag")) := by
  intro report
  have htitle : titleText "dir[/game].ch8" =
      .error (markupError "closing tag '[/game]' at position 3 doesn't match any open tag") := rfl
  have hfits : jumpToItself.length ≤ programSpace := by decide
  obtain ⟨made, fault, hruns, heq⟩ :=
    runLoaded_eq (.plain 100) "dir[/game].ch8" (untold_load .released (.ofScript #[]) hfits) 10 2
  have hreport : report = _ := heq.trans (showing_of_error (draw_plain_of_error htitle 100))
  rw [hreport]
  exact ⟨completes_jumpToItself, rfl, rfl, rfl⟩

end Session
end Chip8

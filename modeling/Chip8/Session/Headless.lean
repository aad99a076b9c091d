import Chip8.Machine.Run
import Chip8.Rom
import Chip8.View.Console

/-! # Headless sessions

A program runs for a number of cycles, with ticks counted in cycles instead of time; then its last screen is shown. -/

namespace Chip8.Session
open View

def defaultMaxCycles : Int := 100000

def defaultCyclesPerTick : Int := 10

/-- What a headless run shows: the exit code or what ended it without one, whether a program was loaded, the lines of
the last screen, the lines printed after it, and the log. -/
structure Report where
  outcome : Except Failure Nat
  loaded : Bool
  screen : Option (List String)
  summary : List String
  log : List LogLine

namespace Report

def logOf (m : Machine) : List LogLine := m.notices.toList.map (·.line)

def summaryOf (m : Machine) : List String :=
  ("Ran " ++ toString m.cycles ++ " cycles.") ::
    match m.lastUnrecognized with
    | some u => ["  " ++ toString m.unrecognized ++ " unrecognized opcode(s), last: " ++ u.text]
    | none => []

/-- The log line for a fault that ended a run. -/
def faultLine (f : Fault) (m : Machine) : LogLine :=
  ⟨.error, .command, f.message ++ " (PC=0x" ++ Text.hex 3 m.pc.val ++ ", cycle " ++ toString m.cycles ++ ")"⟩

/-- The report of a run whose last screen is the frame. The summary is printed after the screen, and if the console
refuses the frame, nothing is printed any more. -/
def showing (console : Console) (f : Frame) (code : Nat) (summary : List String) (log : List LogLine) : Report :=
  match console.draw f with
  | .ok lines => ⟨.ok code, true, some lines, summary, log⟩
  | .error e => ⟨.error (.screen e), true, none, [], log⟩

/-- The report of a machine after its last step. -/
def ofRun (console : Console) (title : String) : EStateM.Result Fault Machine Unit → Report
  | .ok _ m => showing console (.of m title) 0 (summaryOf m) (logOf m)
  | .error f m => showing console (.of m title) 1 (summaryOf m) (logOf m ++ [faultLine f m])

/-- The report of a session whose program could not be read. -/
def unread : Failure → Report
  | .rom e => ⟨.ok 1, false, none, [], [⟨.error, .command, e.message⟩]⟩
  | e => ⟨.error e, false, none, [], []⟩

/-- The report of a run that lacks a value. -/
def lacking (v : MissingValue) (m : Machine) : Report := ⟨.error (.missing v), true, none, [], logOf m⟩

end Report

/-- Runs a loaded machine. The number of cycles is needed at once, the cycles of a tick after the first step. -/
def runLoaded (console : Console) (title : String) (m : Machine) (maxCycles cyclesPerTick : Option Int) : Report :=
  match maxCycles, cyclesPerTick with
  | some n, some k => .ofRun console title (m.run n k)
  | none, _ => .lacking .maxCycles m
  | some n, none =>
    match m.run (min n 1) 0 with
    | .ok () m => if 0 < n then .lacking .ticking m else .ofRun console title (.ok () m)
    | r => .ofRun console title r

/-- Runs what was read from `path`, which is also the title of the screen. -/
def runHeadless (console : Console) (path : String) (rom : Except Failure (List UInt8)) (random : RandomSource)
    (maxCycles cyclesPerTick : Option Int) : Report :=
  match rom with
  | .ok rom => runLoaded console path ((Machine.new .released random).load rom).2 maxCycles cyclesPerTick
  | .error e => .unread e

end Chip8.Session

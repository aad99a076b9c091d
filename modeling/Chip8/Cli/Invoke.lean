import Chip8.Cli.Settings
import Chip8.Session.Live

/-! # Invocations

A command line carried out in given surroundings: the files, the random numbers, the time and the console that it
meets. -/

namespace Chip8.Cli
open Session

structure Surroundings where
  storage : Storage
  random : RandomSource
  time : Time
  console : View.Console

/-- What a command line does to be seen. There is no exit code if it simply ends, or if a failure is passed on. -/
structure Outcome where
  exit : Option Nat := none
  help : Bool := false
  output : String := ""
  errors : String := ""
  seeds : List Seed := []
  failure : Option Failure := none
  played : Option PlayReport := none

def lines (ls : List String) : String := String.join (ls.map (· ++ "\n"))

/-- The log lines that reach the threshold, one a line. -/
def logText (threshold : Level) (log : List LogLine) : String :=
  lines ((log.filter (·.reaches threshold)).map (·.shown))

def usageText (program message : String) : String := program ++ ": error: " ++ message ++ "\n"

/-- Carries out `run`. -/
def invokeRun (threshold : Level) (o : Options) (w : Surroundings) : Outcome :=
  let r := runHeadless w.console o.rom (Rom.read w.storage o.rom) w.random o.maxCycles o.cyclesPerTick
  { exit := r.outcome.toOption
    output := lines (r.screen.getD [])
    errors := logText threshold r.log ++ lines r.summary
    seeds := if r.loaded then [o.seed] else []
    failure := match r.outcome with
      | .ok _ => none
      | .error e => some e }

/-- Carries out `play`. -/
def invokePlay (threshold : Level) (o : Options) (w : Surroundings) : Outcome :=
  let r := Session.play w.console o.rom (Rom.read w.storage o.rom) (o.rate.map .float) o.cyclesPerTick .released
    w.random w.time
  let shown : Outcome :=
    { output := r.output
      errors := logText threshold r.log
      seeds := [o.seed]
      played := some r }
  match r.outcome with
  | .ok _ => shown
  | .error e =>
    if e.isReported then
      { shown with
        exit := some 1
        errors := logText threshold (r.log ++ [⟨.error, .command, e.message⟩]) }
    else { shown with failure := some e }

def invoke (args : List String) (w : Surroundings) : Outcome :=
  match parse args with
  | .error .help => { exit := some 0, help := true }
  | .error (.usage program message) => { exit := some 2, errors := usageText program message }
  | .ok s =>
    match s.threshold, s.command with
    | none, _ => { failure := some (.missing .logLevel) }
    | some _, none => { exit := some 1, help := true }
    | some t, some (.run, o) => invokeRun t o w
    | some t, some (.play, o) => invokePlay t o w

end Chip8.Cli

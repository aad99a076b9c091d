import Chip8.Cli.Invoke
import Chip8.View.Panel

/-! # The program `chip8-vm`

Reads the program file, the time and the seed from the system, and prints what a session shows. -/

namespace Chip8.Cli
open Session

def console : View.Console := .plain 100

def helpText : String :=
  "usage: chip8-vm [-h] [--log-level LEVEL] run ROM [--max-cycles N] [--cycles-per-tick K] [--seed SEED]\n" ++
  "       chip8-vm [-h] [--log-level LEVEL] play ROM [--hz HZ] [--cycles-per-tick K] [--seed SEED]\n"

def fileError : IO.Error → FileError
  | .noFileOrDirectory .. => .noEntry
  | .permissionDenied .. => .denied
  | .inappropriateType _ code _ => if code = 21 ∨ code = 0 - 21 then .isDirectory else .notDirectory
  | .invalidArgument .. => .nameTooLong
  | _ => .noEntry

def readContent (path : String) : IO (Except FileError (List UInt8)) := do
  try
    return .ok (← IO.FS.readBinFile (Path.ofString path).text).toList
  catch e => return .error (fileError e)

def readProgram (path : String) : IO (Except Failure (List UInt8)) := do
  if path.toList.contains '\x00' then return .error .nulInPath
  return (Rom.ofRead path (← readContent path)).mapError .rom

/-- A thorough mixing of the bits of a word. -/
def mix (w : UInt64) : UInt64 :=
  let w := (w ^^^ (w >>> 30)) * 0xBF58476D1CE4E5B9
  let w := (w ^^^ (w >>> 27)) * 0x94D049BB133111EB
  w ^^^ (w >>> 31)

/-- The bytes of a generator of this program's own. They follow from the seed, and are not those that any library draws
from it. -/
def ownGenerator (seed : Int) : RandomSource :=
  let start := UInt64.ofInt seed
  ⟨fun n => (mix (start + UInt64.ofNat (n + 1) * 0x9E3779B97F4A7C15)).toNat % 256, #[]⟩

def randomSource (seed : Seed) : IO RandomSource := do
  match seed with
  | .number n => return ownGenerator n
  | .empty => return ownGenerator 0
  | .unset => return ownGenerator (← IO.rand 0 0x4000000000000000)

/-- The present time in seconds. -/
def now : IO Float := return (← IO.monoNanosNow).toFloat / 1000000000

/-- Shows a frame in the place of the last one. -/
def printFrame (f : View.Frame) : IO Unit := do
  match console.draw f with
  | .ok ls =>
    IO.print ("\x1b[2J\x1b[H" ++ lines ls)
    (← IO.getStdout).flush
  | .error e => throw (.userError e.message)

def logTo (threshold : Level) (log : List LogLine) : IO Unit := IO.eprint (logText threshold log)

/-- Ends with a failure: a reported one is logged, any other is passed on. -/
def fail (threshold : Level) (e : Failure) : IO UInt32 := do
  if e.isReported then
    logTo threshold [⟨.error, .command, e.message⟩]
    return 1
  else throw (.userError e.message)

/-- Plays until a step fails. -/
partial def playLoop (threshold : Level) (cyclesPerTick : Option Int) (clock : TickClock Float) (live : Live) :
    IO UInt32 := do
  let (due, clock) := clock.check (← now)
  if due then
    let (result, next) := live.onTick cyclesPerTick
    logTo threshold ((next.machine.notices.toList.drop live.machine.notices.size).map (·.line))
    match result, next.frames.back? with
    | .error e, _ => fail threshold e
    | .ok _, some f =>
      if live.frames.size < next.frames.size then printFrame f
      playLoop threshold cyclesPerTick clock { next with frames := #[f] }
    | .ok _, none => playLoop threshold cyclesPerTick clock next
  else
    IO.sleep ((clock.remaining (← now)) * 1000).toUInt32
    playLoop threshold cyclesPerTick clock live

def runCommand (threshold : Level) (o : Options) : IO UInt32 := do
  let r := runHeadless console o.rom (← readProgram o.rom) (← randomSource o.seed) o.maxCycles o.cyclesPerTick
  logTo threshold r.log
  IO.print (lines (r.screen.getD []))
  IO.eprint (lines r.summary)
  match r.outcome with
  | .ok code => return UInt32.ofNat code
  | .error e => fail threshold e

def playCommand (threshold : Level) (o : Options) : IO UInt32 := do
  let random ← randomSource o.seed
  match ← readProgram o.rom, tickInterval (o.rate.map .float) with
  | .error e, _ => fail threshold e
  | .ok _, .error e => fail threshold e
  | .ok rom, .ok interval =>
    let m := ((Machine.new .released random).load rom).2
    let live := Live.start m (Path.ofString o.rom).name
    live.frames.forM printFrame
    playLoop threshold o.cyclesPerTick (.start interval (← now)) live

end Chip8.Cli

open Chip8.Cli in
def main (args : List String) : IO UInt32 := do
  match parse args with
  | .error .help =>
    IO.print helpText
    return 0
  | .error (.usage program message) =>
    IO.eprint (usageText program message)
    return 2
  | .ok s =>
    match s.threshold, s.command with
    | none, _ => fail .warning (.missing .logLevel)
    | some _, none =>
      IO.print helpText
      return 1
    | some t, some (.run, o) => runCommand t o
    | some t, some (.play, o) => playCommand t o

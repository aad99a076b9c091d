import Chip8.Cli.Grammar
import Chip8.Cli.PositiveInt
import Chip8.Log
import Chip8.Numeral.Real
import Chip8.Session.Headless

/-! # Settings

What the command line of `chip8-vm` can ask for: `run` or `play` a program file, with the options of each. -/

namespace Chip8.Cli
open Numeral Text

inductive Command
  | run
  | play
deriving DecidableEq

namespace Command

def name : Command → String
  | run => "run"
  | play => "play"

def all : List Command := [run, play]

end Command

/-- The options of the commands. One that was given without a value is none. -/
structure Options where
  rom : String := ""
  cyclesPerTick : Option Int := some Session.defaultCyclesPerTick
  seed : Seed := .unset
  maxCycles : Option Int := some Session.defaultMaxCycles
  rate : Option Float := some Timers.rate

structure Settings where
  threshold : Option Level := some .warning
  command : Option (Command × Options) := none
  unknown : List String := []

/-- The message for a value that is not among the choices. -/
def invalidChoice (v : String) (choices : List String) : String :=
  "invalid choice: " ++ quoted v ++ " (choose from " ++ ", ".intercalate (choices.map quoted) ++ ")"

def invalidValue (type v : String) : String := "invalid " ++ type ++ " value: " ++ quoted v

/-- A flag whose value is a positive integer. -/
def positiveFlag (name : String) (put : Option Int → Options → Options) : Flag Options where
  names := [name]
  action := .store
    (fun v o =>
      match positiveInt v with
      | .ok n => .ok (put n o)
      | .error .tooLongToShow => .error (invalidValue "_positive_int" v)
      | .error e => .error e.message)
    (put none)

def helpFlag (σ : Type) : Flag σ := ⟨["-h", "--help"], .help⟩

def cyclesPerTickFlag : Flag Options := positiveFlag "--cycles-per-tick" fun n o => { o with cyclesPerTick := n }

def seedFlag : Flag Options where
  names := ["--seed"]
  action := .store
    (fun v o =>
      match decimal v with
      | .ok n => .ok { o with seed := .number n }
      | .error _ => .error (invalidValue "int" v))
    fun o => { o with seed := .empty }

def maxCyclesFlag : Flag Options := positiveFlag "--max-cycles" fun n o => { o with maxCycles := n }

def rateFlag : Flag Options where
  names := ["--hz"]
  action := .store
    (fun v o =>
      match real? v with
      | some x => .ok { o with rate := x }
      | none => .error (invalidValue "float" v))
    fun o => { o with rate := none }

def logLevelFlag : Flag Settings where
  names := ["--log-level"]
  action := .store
    (fun v s =>
      match Level.ofName? v with
      | some l => .ok { s with threshold := l }
      | none => .error (invalidChoice v (Level.all.map (·.name))))
    fun s => { s with threshold := none }

def program : String := "chip8-vm"

/-- The grammar of the arguments after a command. -/
def Command.grammar (c : Command) : Grammar Options where
  program := program ++ " " ++ c.name
  flags := [helpFlag Options, cyclesPerTickFlag, seedFlag,
    match c with
    | .run => maxCyclesFlag
    | .play => rateFlag]
  positional := .one "rom" fun v o => { o with rom := v }

/-- Takes a command and its arguments. -/
def parseCommand (args : List String) (s : Settings) : Except Stop Settings :=
  let name := args.headD ""
  match Command.all.find? (·.name == name) with
  | none => .error (.usage program ("argument command: " ++ invalidChoice name (Command.all.map (·.name))))
  | some c => do
    let (options, unknown) ← c.grammar.parse args.tail {}
    return { s with command := some (c, options), unknown := s.unknown ++ unknown }

def grammar : Grammar Settings where
  program := program
  flags := [helpFlag Settings, logLevelFlag]
  positional := .rest parseCommand

/-- The settings of a command line; without a command it asks for the help. -/
def parse (args : List String) : Except Stop Settings := do
  let (s, extras) ← grammar.parse args {}
  let unknown := extras ++ s.unknown
  if unknown.isEmpty then return s
  else throw (.usage program ("unrecognized arguments: " ++ " ".intercalate unknown))

end Chip8.Cli

import Chip8.Text.Digit
import Chip8.Text.Quoted

/-! # Command line grammars

A grammar has flags, each with an optional value, and one positional argument, which either is a single argument or
takes all that follows. An argument is an option if it names a flag, in full or by an unambiguous beginning, and
also if it looks like an option and names none; the latter and superfluous arguments are handed back. After `--`
every argument is positional. -/

namespace Chip8.Cli
open Text

/-- Why parsing ends without settings. -/
inductive Stop
  | help
  | usage (program message : String)
deriving DecidableEq

/-- What a flag does: show the help, or store its converted value, or that it has none where the separator stands
for its value. -/
inductive FlagAction (σ : Type)
  | help
  | store (convert : String → σ → Except String σ) (clear : σ → σ)

structure Flag (σ : Type) where
  names : List String
  action : FlagAction σ

inductive Positional (σ : Type)
  | one (name : String) (store : String → σ → σ)
  | rest (store : List String → σ → Except Stop σ)

structure Grammar (σ : Type) where
  program : String
  flags : List (Flag σ)
  positional : Positional σ

/-- A flag named by an argument, with the explicit value that the argument also holds. -/
structure Match (σ : Type) where
  flag : Flag σ
  name : String
  explicit : Option String

inductive Token (σ : Type)
  | value (s : String)
  | separator
  | unknown (s : String)
  | option (s : String) (m : Match σ)

/-- The argument that a token was read from. -/
def Token.raw {σ : Type} : Token σ → String
  | value s => s
  | separator => "--"
  | unknown s => s
  | option s _ => s

/-- The text before the first equals sign, and the text after it if there is one. -/
def cutAtEquals (s : String) : String × Option String :=
  let cs := s.toList
  let before := String.ofList (cs.takeWhile (· != '='))
  match cs.dropWhile (· != '=') with
  | _ :: after => (before, some (String.ofList after))
  | [] => (before, none)

/-- A minus sign and digits, with at most one point among or before the last of them; a line end may follow. -/
def isNegativeNumber (s : String) : Bool :=
  let isDigit := fun c => (digit? c).isSome
  match s.toList with
  | '-' :: cs =>
    let cs := if cs.getLast? = some '\n' then cs.dropLast else cs
    let whole := cs.takeWhile isDigit
    match cs.dropWhile isDigit with
    | [] => !whole.isEmpty
    | '.' :: fraction => !fraction.isEmpty && fraction.all isDigit
    | _ => false
  | _ => false

/-- How far the positional argument is: still to come, just taken, or taken before the last token. -/
inductive Phase
  | pending
  | justTaken
  | taken
deriving DecidableEq

/-- The phase after a token that is not the positional argument. -/
def Phase.next : Phase → Phase
  | pending => pending
  | _ => taken

namespace Grammar
variable {σ : Type}

/-- All names with their flags, in the order of the grammar. -/
def named (g : Grammar σ) : List (String × Flag σ) := g.flags.flatMap fun f => f.names.map (·, f)

/-- The flags that an argument may name by a beginning. -/
def candidates (g : Grammar σ) (s : String) : List (Match σ) :=
  if s.startsWith "--" then
    let (beginning, explicit) := cutAtEquals s
    (g.named.filter fun n => n.1.startsWith beginning).map fun n => ⟨n.2, n.1, explicit⟩
  else
    let short := String.ofList (s.toList.take 2)
    g.named.filterMap fun n =>
      if n.1 = short then some ⟨n.2, n.1, some (String.ofList (s.toList.drop 2))⟩
      else if n.1.startsWith s then some ⟨n.2, n.1, none⟩
      else none

/-- The flag that an argument names in full, perhaps with an equals sign and a value. -/
def spelledOut? (g : Grammar σ) (s : String) : Option (Match σ) :=
  match g.named.lookup s with
  | some f => some ⟨f, s, none⟩
  | none =>
    match cutAtEquals s with
    | (name, some explicit) => (g.named.lookup name).map fun f => ⟨f, name, some explicit⟩
    | (_, none) => none

def classify (g : Grammar σ) (s : String) : Except Stop (Token σ) :=
  if !s.startsWith "-" || s = "-" then .ok (.value s)
  else
    match g.spelledOut? s with
    | some m => .ok (.option s m)
    | none =>
      match g.candidates s with
      | [m] => .ok (.option s m)
      | [] => .ok (if isNegativeNumber s || s.toList.contains ' ' then .value s else .unknown s)
      | ms =>
        .error (.usage g.program
          ("ambiguous option: " ++ s ++ " could match " ++ ", ".intercalate (ms.map (·.name))))

def tokens (g : Grammar σ) : List String → Except Stop (List (Token σ))
  | [] => .ok []
  | s :: args =>
    if s = "--" then .ok (.separator :: args.map .value)
    else do
      let t ← g.classify s
      return t :: (← g.tokens args)

/-- What is left of joined short flags from the first character on that names no flag. -/
def unusable? (g : Grammar σ) : List Char → Option String
  | [] => none
  | c :: cs =>
    if (g.named.lookup (String.ofList ['-', c])).isSome then g.unusable? cs else some (String.ofList (c :: cs))

/-- The explicit value that a help flag was given in vain. To a short flag, a value that is not empty joins further
short flags, one a character. -/
def helpMisuse? (g : Grammar σ) (m : Match σ) : Option String :=
  match m.explicit with
  | none => none
  | some e => if m.name.startsWith "--" || e.isEmpty then some e else g.unusable? e.toList

def flagError (g : Grammar σ) (f : Flag σ) (message : String) : Stop :=
  .usage g.program ("argument " ++ "/".intercalate f.names ++ ": " ++ message)

/-- Stores the value of a flag. A separator in the place of the value, as in `--opt=--`, leaves the flag without one: so
does release 3.11 of the parser of arguments that this follows, while later releases refuse it as a usage error. -/
def store (g : Grammar σ) (f : Flag σ) (convert : String → σ → Except String σ) (clear : σ → σ) (v : String)
    (s : σ) : Except Stop σ :=
  if v = "--" then .ok (clear s) else (convert v s).mapError (g.flagError f)

/-- Goes through the tokens; the answer is the settings, the phase and the arguments that nothing took. A separator
right before or right after a single positional argument belongs to it. -/
def consume (g : Grammar σ) (phase : Phase) (extras : List String) (s : σ) :
    List (Token σ) → Except Stop (σ × Phase × List String)
  | [] => .ok (s, phase, extras)
  | .unknown raw :: ts => g.consume phase.next (extras ++ [raw]) s ts
  | .option _ m :: ts =>
    match m.flag.action with
    | .help =>
      match g.helpMisuse? m with
      | some e => .error (g.flagError m.flag ("ignored explicit argument " ++ quoted e))
      | none => .error .help
    | .store convert clear =>
      match m.explicit with
      | some v => do g.consume phase.next extras (← g.store m.flag convert clear v s) ts
      | none =>
        match ts with
        | .value v :: ts' => do g.consume phase.next extras (← g.store m.flag convert clear v s) ts'
        | _ => .error (g.flagError m.flag "expected one argument")
  | .value v :: ts =>
    match phase, g.positional with
    | .pending, .one _ store => g.consume .justTaken extras (store v s) ts
    | .pending, .rest store => (store (v :: ts.map (·.raw)) s).map (·, .taken, extras)
    | _, _ => g.consume .taken (extras ++ [v]) s ts
  | .separator :: ts =>
    match phase, g.positional, ts.head? with
    | .pending, .one .., some (.value _) => g.consume .pending extras s ts
    | .pending, .rest store, some (.value _) => (store ("--" :: ts.map (·.raw)) s).map (·, .taken, extras)
    | .justTaken, .one .., _ => g.consume .taken extras s ts
    | _, _, _ => g.consume phase (extras ++ ["--"]) s ts

/-- The settings that the arguments make of `s`, and the arguments that nothing took. -/
def parse (g : Grammar σ) (args : List String) (s : σ) : Except Stop (σ × List String) := do
  let (s, phase, extras) ← g.consume .pending [] s (← g.tokens args)
  match g.positional, phase with
  | .one name _, .pending => throw (.usage g.program ("the following arguments are required: " ++ name))
  | _, _ => return (s, extras)

end Grammar
end Chip8.Cli

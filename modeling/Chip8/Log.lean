/-! # Log lines -/

namespace Chip8

inductive Level
  | debug
  | info
  | warning
  | error
deriving DecidableEq

namespace Level

def name : Level → String
  | debug => "DEBUG"
  | info => "INFO"
  | warning => "WARNING"
  | error => "ERROR"

def all : List Level := [debug, info, warning, error]

def ofName? (s : String) : Option Level := all.find? (·.name == s)

def severity : Level → Nat
  | debug => 10
  | info => 20
  | warning => 30
  | error => 40

end Level

/-- Which part of the program wrote a line. -/
inductive LogSource
  | processor
  | command
  | display
deriving DecidableEq

def LogSource.name : LogSource → String
  | processor => "chip8_vm.cpu.cpu"
  | command => "chip8_vm.cli"
  | display => "chip8_vm.tui.app"

structure LogLine where
  level : Level
  source : LogSource
  text : String
deriving DecidableEq

namespace LogLine

def shown (l : LogLine) : String := l.level.name ++ " " ++ l.source.name ++ ": " ++ l.text

/-- Whether a log that shows lines from `threshold` on shows this one. -/
def reaches (l : LogLine) (threshold : Level) : Bool := threshold.severity ≤ l.level.severity

end LogLine
end Chip8

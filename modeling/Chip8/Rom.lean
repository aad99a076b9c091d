import Chip8.Failure
import Chip8.Machine

/-! # Programs from storage

A program file holds at least one byte and no more than fit below the display window. -/

namespace Chip8.Rom

/-- Checks the content of a program file. -/
def check (path : String) (content : List UInt8) : Except RomError (List UInt8) :=
  if content.isEmpty then .error (.empty path)
  else if Machine.programSpace < content.length then
    .error (.tooLarge path content.length Machine.programSpace)
  else .ok content

/-- The program that a read file holds. -/
def ofRead (path : String) (content : Except FileError (List UInt8)) : Except RomError (List UInt8) :=
  match content with
  | .error e => .error (.unreadable path e)
  | .ok content => check path content

def read (st : Storage) (path : String) : Except Failure (List UInt8) :=
  if path.toList.contains '\x00' then .error .nulInPath
  else (ofRead path (st.read (.ofString path))).mapError .rom

end Chip8.Rom

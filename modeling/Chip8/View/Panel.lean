import Chip8.Text.Cells
import Chip8.View.Markup

/-! # Panels

A console that frames the picture, with the title set into the upper edge and the status line into the lower edge. The
panel is as wide as the picture or the title needs, at most as wide as the console; what does not fit an edge is cut.
Widths are counted in cells. -/

namespace Chip8.View
open Text

/-- The text cut to `width` cells, or centred in them between rules, the longer rule on the right. -/
def inRule (width : Nat) (s : List Char) : List Char :=
  let s := crop width s
  let rest := width - cellCount s
  List.replicate (rest / 2) '─' ++ s ++ List.replicate (rest - rest / 2) '─'

/-- The controls that are dropped from titles. -/
def droppedControls : List Char := ['\x07', '\x08', '\x0B', '\x0C', '\r']

/-- The text on one line: without some controls, and with blanks for line ends and tabs. -/
def titleLine (text : List Char) : List Char :=
  expandTabs ((text.filter (· ∉ droppedControls)).map fun c => if c = '\n' then ' ' else c)

/-- What stands in the upper edge for a title: its text with one blank on either side, or nothing for no title. -/
def edgeTitle (title : String) : Except DrawError (List Char) :=
  if title.isEmpty then .ok [] else (titleText title).map fun text => ' ' :: titleLine text ++ [' ']

/-- The width between the two borders, for a title that takes as many cells. -/
def innerWidth (consoleWidth titleCells : Nat) : Nat := min (consoleWidth - 2) (max 66 (titleCells + 2))

/-- The lines of the panel on a console of the given width, which is at least 68. -/
def Frame.panel (f : Frame) (consoleWidth : Nat) (title : List Char) : List String :=
  let inner := innerWidth consoleWidth (cellCount title)
  let rule := inner - 2
  let top := '╭' :: '─' :: inRule rule title ++ ['─', '╮']
  let bottom := '╰' :: '─' :: inRule rule (' ' :: f.status.toList ++ [' ']) ++ ['─', '╯']
  let row := fun (line : String) =>
    let line := line.toList
    '│' :: ' ' :: line ++ List.replicate (rule - line.length) ' ' ++ [' ', '│']
  String.ofList top :: f.lines.map (fun l => String.ofList (row l)) ++ [String.ofList bottom]

/-- A console that draws panels without colours, and is no terminal. -/
def Console.plain (width : Nat) : Console := ⟨fun f => (edgeTitle f.title).map (f.panel width)⟩

end Chip8.View

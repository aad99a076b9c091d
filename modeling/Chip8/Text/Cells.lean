import Chip8.Text.CellWidth

/-! # Texts in cells

On a console a text takes cells. A character without cells belongs to the one before it, and so do a joiner with
the character after it and the selector that asks for a picture; such a cluster is never divided. -/

namespace Chip8.Text

def joiner : Char := '\u200D'

/-- Asks for the character before it to be drawn as a picture. -/
def pictureSelector : Char := '\uFE0F'

/-- Characters that are drawn as one, and the cells that they take. -/
structure Cluster where
  chars : List Char
  cells : Nat
deriving DecidableEq

def Cluster.extend (k : Cluster) (cs : List Char) (cells : Nat) : Cluster := ⟨k.chars ++ cs, k.cells + cells⟩

/-- The cluster `k`, which the characters may extend, and those after it. `base` is the last character with cells,
unless it is a picture already. -/
def clustersFrom (k : Cluster) (base : Option Char) : List Char → List Cluster
  | [] => [k]
  | c :: cs =>
    if c = joiner then
      match cs with
      | [] => [k.extend [c] 0]
      | d :: cs => clustersFrom (k.extend [c, d] 0) base cs
    else if c = pictureSelector then
      clustersFrom (k.extend [c] (if base.any hasPicture then 1 else 0)) none cs
    else if cellWidth c = 0 then clustersFrom (k.extend [c] 0) base cs
    else k :: clustersFrom ⟨[c], cellWidth c⟩ (some c) cs
termination_by structural s => s

/-- The clusters of a text; the first one has no cells and holds what comes before any character that does. -/
def clusters (s : List Char) : List Cluster := clustersFrom ⟨[], 0⟩ none s

/-- The cells that a text takes. -/
def cellCount (s : List Char) : Nat := (clusters s).foldr (fun k n => k.cells + n) 0

/-- The clusters that fit into a number of cells, and blanks for a part of the next one. -/
def cropClusters : Nat → List Cluster → List Char
  | _, [] => []
  | width, k :: ks =>
    if k.cells ≤ width then k.chars ++ cropClusters (width - k.cells) ks else List.replicate width ' '

/-- The text, cut to a number of cells. -/
def crop (width : Nat) (s : List Char) : List Char := cropClusters width (clusters s)

def tabWidth : Nat := 8

/-- A text between two tab stops with a blank for the tab at its end and blanks up to the next stop. -/
def toTabStop (s : List Char) : List Char :=
  let s := s ++ [' ']
  s ++ List.replicate ((tabWidth - cellCount s % tabWidth) % tabWidth) ' '

/-- The text with blanks for its tabs; `since` is what comes after the last tab so far, newest first. -/
def expandTabsFrom (since : List Char) : List Char → List Char
  | [] => since.reverse
  | c :: cs =>
    if c = '\t' then toTabStop since.reverse ++ expandTabsFrom [] cs else expandTabsFrom (c :: since) cs

def expandTabs (s : List Char) : List Char := expandTabsFrom [] s

end Chip8.Text

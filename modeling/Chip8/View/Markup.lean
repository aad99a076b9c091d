import Chip8.Text.Blank
import Chip8.View.Console

/-! # Markup

Titles are markup: a tag in brackets changes the style of what follows it until it is closed, and takes no place itself.
A backslash before a tag makes it text. Of a tag only its name counts here, as it is written: other consoles also know
several names of one style, refuse some values of tags, and write pictures for their names between colons. -/

namespace Chip8.View
open Text

/-- The text of a tag after its opening bracket, if there is a tag. -/
def tag? : List Char → Option (List Char)
  | [] => none
  | c :: cs =>
    let isInTag := fun c => c != '[' && c != ']'
    if (c.isLower || c = '#' || c = '/' || c = '@') && (cs.dropWhile isInTag).head? = some ']' then
      some (c :: cs.takeWhile isInTag)
    else none

def tagName (tag : List Char) : List Char := trim (tag.takeWhile (· != '='))

def markupError (message : String) : DrawError := ⟨"MarkupError", message⟩

/-- The names of the open tags, the newest first, after a tag that stands at `position`. A tag that begins with a slash
closes the newest tag of its name, or without a name the newest of all. -/
def afterTag (position : Nat) (opened : List (List Char)) : List Char → Except DrawError (List (List Char))
  | '/' :: tag =>
    match tagName tag, opened with
    | [], [] => .error (markupError ("closing tag '[/]' at position " ++ toString position ++ " has nothing to close"))
    | [], _ :: opened => .ok opened
    | name, opened =>
      if name ∈ opened then .ok (opened.erase name)
      else
        .error (markupError ("closing tag '[/" ++ String.ofList tag ++ "]' at position " ++ toString position ++
          " doesn't match any open tag"))
  | tag => .ok (tagName tag :: opened)

/-- The text that markup stands for, from `position` on, after as many backslashes. The next `skip` characters belong to
a tag that was read. -/
def textFrom (position : Nat) (opened : List (List Char)) (backslashes skip : Nat) :
    List Char → Except DrawError (List Char)
  | [] => .ok (List.replicate backslashes '\\')
  | c :: cs =>
    match skip with
    | skip + 1 => textFrom (position + 1) opened 0 skip cs
    | 0 =>
      if c = '\\' then textFrom (position + 1) opened (backslashes + 1) 0 cs
      else if c = '[' then
        match tag? cs with
        | none => (textFrom (position + 1) opened 0 0 cs).map (List.replicate (backslashes - 1) '\\' ++ '[' :: ·)
        | some tag =>
          let half := List.replicate (backslashes / 2) '\\'
          if backslashes % 2 = 1 then
            (textFrom (position + 1) opened 0 (tag.length + 1) cs).map (half ++ '[' :: tag ++ ']' :: ·)
          else do
            let opened ← afterTag position opened tag
            (textFrom (position + 1) opened 0 (tag.length + 1) cs).map (half ++ ·)
      else (textFrom (position + 1) opened 0 0 cs).map (List.replicate backslashes '\\' ++ c :: ·)

/-- The text that a title stands for. -/
def titleText (title : String) : Except DrawError (List Char) := textFrom 0 [] 0 0 title.toList

end Chip8.View

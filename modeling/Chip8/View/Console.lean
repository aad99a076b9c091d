import Chip8.Failure
import Chip8.View.Picture
import Chip8.View.Status

/-! # Consoles

A frame is what there is to show of a machine at one moment. How it is laid out is a matter of the console, which may also
refuse it: a title is markup to a console, and not every text is good markup. -/

namespace Chip8.View

/-- A screen that is to be shown: title, picture and status line of one moment. -/
structure Frame where
  title : String
  lines : List String
  status : String
deriving DecidableEq

def Frame.of (m : Machine) (title : String) : Frame := ⟨title, picture m.screen, View.status m⟩

/-- The default title. -/
def defaultTitle : String := "CHIP-8"

/-- What draws frames as lines of text, or refuses them. -/
structure Console where
  draw : Frame → Except DrawError (List String)

end Chip8.View

import TermReplay.Control.Command
import TermReplay.Store.Stored
import TermReplay.Terminal.Basic

/-!
Stored names of the enumerations that a terminal and its commands are made of.
-/

namespace TermReplay

instance : Named LineWidth where
  all := [.normal, .double]
  name
    | .normal => "Normal"
    | .double => "Double"

instance : Named LineHeight where
  all := [.normal, .top, .bottom]
  name
    | .normal => "Normal"
    | .top => "Top"
    | .bottom => "Bottom"

instance : Named Slot where
  all := [.g0, .g1]
  name
    | .g0 => "G0"
    | .g1 => "G1"

instance : Named CharacterSet where
  all := [.us, .uk, .line, .rom, .romSpecial]
  name
    | .us => "Us"
    | .uk => "Uk"
    | .line => "Line"
    | .rom => "Rom"
    | .romSpecial => "RomSpecial"

instance : Named ScrollStyle where
  all := [.jump, .smooth]
  name
    | .jump => "Jump"
    | .smooth => "Smooth"

instance : Named Origin where
  all := [.screen, .margin]
  name
    | .screen => "Screen"
    | .margin => "Margin"

instance : Named ScreenKind where
  all := [.primary, .alternate]
  name
    | .primary => "Primary"
    | .alternate => "Alternate"

instance : Named NewLine where
  all := [.feed, .feedAndReturn]
  name
    | .feed => "Cr"
    | .feedAndReturn => "CrLf"

instance : Named Keypad where
  all := [.numeric, .application]
  name
    | .numeric => "Numeric"
    | .application => "Application"

instance : Named Direction where
  all := [.up, .down, .left, .right]
  name
    | .up => "Up"
    | .down => "Down"
    | .left => "Left"
    | .right => "Right"

instance : Named EraseScope where
  all := [.toStart, .toEnd, .whole]
  name
    | .toStart => "ToStart"
    | .toEnd => "ToEnd"
    | .whole => "Whole"

instance : Named ReportKind where
  all := [.status, .printer, .cursorPosition, .deviceAttributes, .version]
  name
    | .status => "Status"
    | .printer => "Printer"
    | .cursorPosition => "CursorPosition"
    | .deviceAttributes => "DeviceAttributes"
    | .version => "VersionString"

instance : Named ShiftSlot where
  all := [.g2, .g3]
  name
    | .g2 => "G2"
    | .g3 => "G3"

end TermReplay

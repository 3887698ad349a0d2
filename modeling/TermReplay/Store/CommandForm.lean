import TermReplay.Store.Form

/-!
The written forms of commands. A command with content is an object whose only key names the
kind; kinds that belong together share a key.
-/

namespace TermReplay

open Json (Schema labelled)
open Stored (schema toJson)

def Json.tagged (tag : String) (content : Json) : Json := .object [(tag, content)]

def Json.optional {α : Type} [Stored α] : Option α → Json
  | some a => toJson a
  | none => .null

open Json (tagged)

def ModeChange.written : ModeChange → Json
  | .cursorKeyAnsi on => tagged "CursorKeyAnsi" (toJson on)
  | .vt52 on => tagged "Vt52" (toJson on)
  | .columns count => tagged "Width" (toJson count)
  | .scroll style => tagged "Scroll" (toJson style)
  | .reverseScreen on => tagged "ReverseScreen" (toJson on)
  | .autoWrap on => tagged "AutoWrap" (toJson on)
  | .autoRepeat on => tagged "AutoRepeat" (toJson on)
  | .mouseDown on => tagged "MouseTrackingDown" (toJson on)
  | .mouseUp on => tagged "MouseTrackingUp" (toJson on)
  | .screen kind => tagged "CurrentScreen" (toJson kind)
  | .keyboardLocked on => tagged "KeyboardLocked" (toJson on)
  | .insert on => tagged "Insert" (toJson on)
  | .localEcho on => tagged "LocalEcho" (toJson on)
  | .newLine kind => tagged "NewLine" (toJson kind)
  | .keypad kind => tagged "Keypad" (toJson kind)
  | .cursorVisible on => tagged "CursorVisible" (toJson on)

namespace Command

def positionFields : List (String × Schema) := uniformFields (schema Nat) ["row", "col"]

def written : Command → Json
  | .bell => tagged "SpecialChar" (.string "Bell")
  | .backspace => tagged "SpecialChar" (.string "Backspace")
  | .tab => tagged "SpecialChar" (.string "HorizontalTab")
  | .lineFeed => tagged "SpecialChar" (.string "LineFeed")
  | .verticalTab => tagged "SpecialChar" (.string "VerticalTab")
  | .formFeed => tagged "SpecialChar" (.string "FormFeed")
  | .carriageReturn => tagged "SpecialChar" (.string "CarriageReturn")
  | .useSlot slot => tagged "Charset" (tagged "Switch" (toJson slot))
  | .designate slot set => tagged "Charset" (tagged "Set" (.array [toJson slot, toJson set]))
  | .print text => tagged "NormalString" (toJson text)
  | .arrow direction count => tagged "Arrow" (.array [toJson direction, toJson count])
  | .home => tagged "Goto" (.string "Home")
  | .goto row col =>
    tagged "Goto" (tagged "Position" (labelled positionFields [toJson row, toJson col]))
  | .gotoColumn col => tagged "GotoColumn" (toJson col)
  | .gotoRow row => tagged "GotoRow" (toJson row)
  | .index => tagged "Index" (.string "Down")
  | .reverseIndex => tagged "Index" (.string "Up")
  | .nextLine => tagged "Index" (.string "NextLine")
  | .saveCursor => tagged "CursorStack" (.string "Push")
  | .restoreCursor => tagged "CursorStack" (.string "Pop")
  | .mode change => tagged "Mode" change.written
  | .origin base => tagged "OriginMode" (toJson base)
  | .singleShift slot char => tagged "SingleShift" (.array [toJson slot, toJson char])
  | .setTab => tagged "TabStop" (.string "Add")
  | .clearTab => tagged "TabStop" (.string "Remove")
  | .clearAllTabs => tagged "TabStop" (.string "Clear")
  | .lineSize size => tagged "LineAttr" (toJson size)
  | .eraseInLine scope => tagged "EraseInLine" (toJson scope)
  | .eraseInDisplay scope => tagged "EraseInDisplay" (toJson scope)
  | .deleteChars count => tagged "DeleteChars" (toJson count)
  | .insertChars count => tagged "InsertChars" (toJson count)
  | .eraseChars count => tagged "EraseChars" (toJson count)
  | .insertLines count => tagged "InsertLines" (toJson count)
  | .deleteLines count => tagged "DeleteLines" (toJson count)
  | .scrollUp count => tagged "ScrollUp" (toJson count)
  | .scrollDown count => tagged "ScrollDown" (toJson count)
  | .report kind => tagged "Report" (toJson kind)
  | .ledsOff => tagged "Led" (.string "AllOff")
  | .led number => tagged "Led" (tagged "On" (toJson number))
  | .windowTitle title => tagged "SetWindowTitle" (toJson title)
  | .iconTitle title => tagged "SetIconTitle" (toJson title)
  | .bothTitles title => tagged "SetWindowIconTitle" (toJson title)
  | .margins top bottom =>
    tagged "SetMargins" (labelled Margins.fields [Json.optional top, Json.optional bottom])
  | .resetMargins => .string "ResetMargins"
  | .softReset => .string "SoftReset"
  | .reset => .string "Reset"
  | .attribute code => tagged "SetAttribute" (toJson code)
  | .selfTest params => tagged "Hardware" (tagged "SelfTest" (toJson params))
  | .screenAlignment => tagged "Hardware" (.string "ScreenAlignment")

end Command

end TermReplay

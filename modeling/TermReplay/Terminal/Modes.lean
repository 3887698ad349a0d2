/-!
The modes of a terminal and the single changes that set and reset sequences ask for. Storing a
change is refused where a flag is not enough: switching screens, and what is not emulated.
-/

namespace TermReplay

inductive ScrollStyle
  | jump | smooth
  deriving DecidableEq, Repr, Inhabited

/-- What cursor addresses are relative to. -/
inductive Origin
  | screen | margin
  deriving DecidableEq, Repr, Inhabited

inductive ScreenKind
  | primary | alternate
  deriving DecidableEq, Repr, Inhabited

/-- Whether a line feed also returns the carriage. -/
inductive NewLine
  | feed | feedAndReturn
  deriving DecidableEq, Repr, Inhabited

inductive Keypad
  | numeric | application
  deriving DecidableEq, Repr, Inhabited

inductive ModeChange
  | cursorKeyAnsi (on : Bool)
  | vt52 (on : Bool)
  /-- A column count; the width of the terminal is fixed. -/
  | columns (count : Nat)
  | scroll (style : ScrollStyle)
  | reverseScreen (on : Bool)
  | autoWrap (on : Bool)
  | autoRepeat (on : Bool)
  | mouseDown (on : Bool)
  | mouseUp (on : Bool)
  | screen (kind : ScreenKind)
  | keyboardLocked (on : Bool)
  | insert (on : Bool)
  | localEcho (on : Bool)
  | newLine (kind : NewLine)
  | keypad (kind : Keypad)
  | cursorVisible (on : Bool)
  deriving DecidableEq, Repr

structure Modes where
  cursorKeyAnsi : Bool := true
  keypad : Keypad := .numeric
  scroll : ScrollStyle := .jump
  reverseScreen : Bool := false
  origin : Origin := .screen
  autoWrap : Bool := true
  autoRepeat : Bool := true
  mouseDown : Bool := false
  mouseUp : Bool := false
  screen : ScreenKind := .primary
  keyboardLocked : Bool := false
  insert : Bool := false
  localEcho : Bool := true
  newLine : NewLine := .feed
  cursorVisible : Bool := true
  deriving DecidableEq, Repr, Inhabited

namespace Modes

/-- The modes after a change that is a plain flag; `none` for any other change. -/
def store? (m : Modes) : ModeChange → Option Modes
  | .cursorKeyAnsi on => some { m with cursorKeyAnsi := on }
  | .scroll style => some { m with scroll := style }
  | .reverseScreen on => some { m with reverseScreen := on }
  | .autoWrap on => some { m with autoWrap := on }
  | .autoRepeat on => some { m with autoRepeat := on }
  | .mouseDown on => some { m with mouseDown := on }
  | .mouseUp on => some { m with mouseUp := on }
  | .keyboardLocked on => some { m with keyboardLocked := on }
  | .insert on => some { m with insert := on }
  | .localEcho on => some { m with localEcho := on }
  | .newLine kind => some { m with newLine := kind }
  | .keypad kind => some { m with keypad := kind }
  | .cursorVisible on => some { m with cursorVisible := on }
  | .screen _ | .vt52 _ | .columns _ => none

end Modes

end TermReplay

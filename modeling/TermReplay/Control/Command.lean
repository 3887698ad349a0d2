import TermReplay.Screen.Cell
import TermReplay.Terminal.CharacterSet
import TermReplay.Terminal.Modes

/-!
The commands a terminal obeys. Counts, rows and columns are as sent: one-based, and at most
65535 when they come from a control sequence. A token of the input yields commands and warnings.
-/

namespace TermReplay

inductive Direction
  | up | down | left | right
  deriving DecidableEq, Repr

/-- The part of a line or screen to erase; both partial scopes include the cursor cell. -/
inductive EraseScope
  | toStart | toEnd | whole
  deriving DecidableEq, Repr

inductive ReportKind
  | status | printer | cursorPosition | deviceAttributes | version
  deriving DecidableEq, Repr

inductive ShiftSlot
  | g2 | g3
  deriving DecidableEq, Repr

inductive Command
  | bell
  | backspace
  | tab
  | lineFeed
  | verticalTab
  | formFeed
  | carriageReturn
  | useSlot (slot : Slot)
  | designate (slot : Slot) (set : CharacterSet)
  | print (text : String)
  | arrow (direction : Direction) (count : Nat)
  | home
  | goto (row col : Nat)
  | gotoColumn (col : Nat)
  | gotoRow (row : Nat)
  | index
  | reverseIndex
  | nextLine
  | saveCursor
  | restoreCursor
  | mode (change : ModeChange)
  | origin (origin : Origin)
  | singleShift (slot : ShiftSlot) (char : Char)
  | setTab
  | clearTab
  | clearAllTabs
  | lineSize (size : LineSize)
  | eraseInLine (scope : EraseScope)
  | eraseInDisplay (scope : EraseScope)
  | deleteChars (count : Nat)
  | insertChars (count : Nat)
  | eraseChars (count : Nat)
  | insertLines (count : Nat)
  | deleteLines (count : Nat)
  | scrollUp (count : Nat)
  | scrollDown (count : Nat)
  | report (kind : ReportKind)
  | ledsOff
  | led (number : Nat)
  | windowTitle (title : String)
  | iconTitle (title : String)
  | bothTitles (title : String)
  /-- A missing bound means the edge of the screen. -/
  | margins (top bottom : Option Nat)
  | resetMargins
  | softReset
  | reset
  | attribute (code : Nat)
  | selfTest (params : String)
  | screenAlignment
  deriving DecidableEq, Repr

inductive Output
  | command (c : Command)
  /-- Input that was consumed without being understood. -/
  | warning (message : String)
  deriving DecidableEq, Repr

end TermReplay

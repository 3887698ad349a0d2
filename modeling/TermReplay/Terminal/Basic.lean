import TermReplay.Screen.Grid
import TermReplay.Terminal.CharacterSet
import TermReplay.Terminal.SavedCursors
import TermReplay.Terminal.Notice

/-!
The state of a terminal. It is plain data: whether its parts fit together is a separate
predicate, since states are also read from outside.
-/

namespace TermReplay

/-- The scroll region, first and last row included. -/
structure Margins where
  top : Nat
  bottom : Nat
  deriving DecidableEq, Repr, Inhabited

def Margins.full (height : Nat) : Margins := ⟨0, height - 1⟩

structure Leds where
  led1 : Bool := false
  led2 : Bool := false
  led3 : Bool := false
  led4 : Bool := false
  deriving DecidableEq, Repr, Inhabited

/-- There are no other lamps to light. -/
def Leds.light (leds : Leds) : Nat → Leds
  | 1 => { leds with led1 := true }
  | 2 => { leds with led2 := true }
  | 3 => { leds with led3 := true }
  | 4 => { leds with led4 := true }
  | _ => leds

structure Terminal where
  width : Nat
  height : Nat
  primary : Grid
  alternate : Grid
  cursor : Cursor
  saved : SavedCursors
  modes : Modes
  margins : Margins
  /-- Whether a column is a tab stop. -/
  tabs : Array Bool
  windowTitle : String
  iconTitle : String
  designations : Designations
  leds : Leds
  deriving DecidableEq, Repr, Inhabited

/-- A size without room for a cursor and a scroll region. -/
structure TooSmall where
  width : Nat
  height : Nat
  deriving DecidableEq, Repr

def TooSmall.message (e : TooSmall) : String :=
  "terminal must be at least 1x2, got " ++ toString e.width ++ "x" ++ toString e.height

namespace Terminal

def defaultTabs (width : Nat) : Array Bool :=
  (Array.range width).map (· % 8 == 0)

def initial (width height depth : Nat) : Terminal :=
  { width, height
    primary := Grid.blank width height
    alternate := Grid.blank width height
    cursor := {}
    saved := SavedCursors.empty depth
    modes := {}
    margins := Margins.full height
    tabs := defaultTabs width
    windowTitle := ""
    iconTitle := ""
    designations := {}
    leds := {} }

def create (width height depth : Nat) : Except TooSmall Terminal :=
  if 1 ≤ width ∧ 2 ≤ height then .ok (initial width height depth)
  else .error ⟨width, height⟩

def grid (t : Terminal) : ScreenKind → Grid
  | .primary => t.primary
  | .alternate => t.alternate

def live (t : Terminal) : Grid := t.grid t.modes.screen

def editLive (t : Terminal) (f : Grid → Grid) : Terminal :=
  match t.modes.screen with
  | .primary => { t with primary := f t.primary }
  | .alternate => { t with alternate := f t.alternate }

def lastColumn (t : Terminal) : Nat := t.width - 1

def lastRow (t : Terminal) : Nat := t.height - 1

/-- The column of the cell under the cursor, also while a wrap is pending. -/
def column (t : Terminal) : Nat := min t.cursor.x t.lastColumn

def moveTo (t : Terminal) (x y : Nat) : Terminal := { t with cursor := t.cursor.moveTo x y }

def screenText (t : Terminal) : String := t.live.screenText

end Terminal

end TermReplay

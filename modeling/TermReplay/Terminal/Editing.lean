import TermReplay.Terminal.Movement

/-!
Writing to and erasing from the live grid. Every edit tells exactly the columns it may have
changed; cells are written with the pen of the cursor and erased to plain blanks.
-/

namespace TermReplay.Terminal

/-- Resolves a pending wrap: on to the next line, or back onto the last column. -/
def settleWrap (t : Terminal) : Reaction :=
  if t.cursor.x = t.width then
    if t.modes.autoWrap then (t.moveTo 0 t.cursor.y).advanceLine
    else (t.moveTo t.lastColumn t.cursor.y).quietly
  else t.quietly

/-- Writes a character at the cursor, or shifts it in, and moves on by one column. -/
def place (t : Terminal) (char : Char) : Reaction :=
  let x := t.cursor.x
  let y := t.cursor.y
  let cell : Cell := { char, pen := t.cursor.pen }
  if t.modes.insert then
    ((t.editLive (·.insertCell x y cell)).telling [.change y x t.lastColumn]).andThen
      fun t => (t.moveTo (x + 1) y).tellingCursor
  else
    ((t.editLive (·.set x y cell)).telling [.change y x x]).andThen
      fun t => (t.moveTo (x + 1) y).tellingCursor

def printChar (char : Char) (t : Terminal) : Reaction :=
  let shown := t.designations.translate char
  t.settleWrap.andThen (·.place shown)

def print (t : Terminal) (text : String) : Reaction := each printChar text.toList t

/-- Blanks columns of the cursor row, first and last included. -/
def blankColumns (t : Terminal) (first last : Nat) : Reaction :=
  let y := t.cursor.y
  (t.editLive (·.blankSpan y first last)).telling [.change y first last]

def eraseInLine (t : Terminal) (scope : EraseScope) : Reaction :=
  match scope with
  | .toEnd => t.blankColumns t.column t.lastColumn
  | .toStart => t.blankColumns 0 t.column
  | .whole => t.blankColumns 0 t.lastColumn

/-- Blanks whole rows, and tells of them in the order given. -/
def blankRows (t : Terminal) (first stop : Nat) (order : List Nat → List Nat) : Reaction :=
  (t.editLive (·.blankRows first stop)).telling (t.wholeRows (order (rowsUpTo first stop)))

/-- The row of the cursor is erased in part, and keeps its size; the rows beyond it are blanked
whole. Towards the start they are told from the cursor upwards. -/
def eraseInDisplay (t : Terminal) (scope : EraseScope) : Reaction :=
  let y := t.cursor.y
  match scope with
  | .toEnd => (t.eraseInLine .toEnd).andThen fun t => t.blankRows (y + 1) t.height id
  | .toStart => (t.eraseInLine .toStart).andThen fun t => t.blankRows 0 y List.reverse
  | .whole => t.blankRows 0 t.height id

def tellingRest (t : Terminal) : Reaction :=
  t.telling [.change t.cursor.y t.column t.lastColumn]

def deleteChars (t : Terminal) (count : Nat) : Reaction :=
  let x := t.column
  let y := t.cursor.y
  let times := min count (t.width - x)
  (t.editLive (Nat.repeat (·.deleteCell x y) times)).tellingRest

def insertChars (t : Terminal) (count : Nat) : Reaction :=
  let x := t.column
  let y := t.cursor.y
  let times := min count (t.width - x)
  (t.editLive (Nat.repeat (·.insertCell x y .blank) times)).tellingRest

def eraseChars (t : Terminal) (count : Nat) : Reaction :=
  let x := t.column
  t.blankColumns x (min (x + max count 1 - 1) t.lastColumn)

/-- Lines are inserted and deleted inside the scroll region only, and no row is reported as
scrolled. -/
def editLines (t : Terminal) (count : Nat) (f : Nat → Nat → Grid → Grid) : Reaction :=
  let y := t.cursor.y
  let bottom := t.margins.bottom
  if y < t.margins.top ∨ bottom < y then t.quietly
  else
    (t.editLive (Nat.repeat (f y bottom) (min count (bottom - y + 1)))).telling
      (t.wholeRows (rowsUpTo y (bottom + 1)))

def insertLines (t : Terminal) (count : Nat) : Reaction :=
  t.editLines count fun y bottom g => g.cycleRows bottom y

def deleteLines (t : Terminal) (count : Nat) : Reaction :=
  t.editLines count fun y bottom g => g.cycleRows y bottom

def setLineSize (t : Terminal) (size : LineSize) : Reaction :=
  let y := t.cursor.y
  (t.editLive (·.setLineSize y size)).telling (t.wholeRows [y])

/-- Fills the live grid with a test pattern, opens the margins and goes to the first cell. -/
def alignScreen (t : Terminal) : Reaction :=
  let t := { t.editLive (·.fill 'E') with margins := Margins.full t.height }
  let t := t.moveTo 0 0
  (t.telling (t.wholeRows (rowsUpTo 0 t.height))).andThen tellingCursor

end TermReplay.Terminal

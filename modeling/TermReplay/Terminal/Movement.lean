import TermReplay.Control.Command
import TermReplay.Terminal.Reaction

/-!
Moving the cursor and scrolling. Rows are bounded by the screen or, under the margin origin, by
the scroll region; only line feeds and indexing at the edge of the region scroll it.
-/

namespace TermReplay.Terminal

/-- The first and last row that the cursor may be moved to. -/
def rowBounds (t : Terminal) : Nat × Nat :=
  match t.modes.origin with
  | .screen => (0, t.lastRow)
  | .margin => (t.margins.top, t.margins.bottom)

def originRow (t : Terminal) : Nat :=
  match t.modes.origin with
  | .screen => 0
  | .margin => t.margins.top

/-- Moves to an address: the row counts from the origin, and both coordinates are limited to
where the cursor may be. -/
def goto (t : Terminal) (x y : Nat) : Reaction :=
  let row :=
    match t.modes.origin with
    | .screen => min y t.lastRow
    | .margin => min (y + t.margins.top) t.margins.bottom
  (t.moveTo (min x t.lastColumn) row).tellingCursor

def arrow (t : Terminal) (direction : Direction) (count : Nat) : Reaction :=
  let (first, last) := t.rowBounds
  let c := t.cursor
  match direction with
  | .up => (t.moveTo c.x (max (c.y - count) first)).tellingCursor
  | .down => (t.moveTo c.x (min (c.y + count) last)).tellingCursor
  | .left => (t.moveTo (c.x - count) c.y).tellingCursor
  | .right => (t.moveTo (min (c.x + count) t.lastColumn) c.y).tellingCursor

/-- Takes row `remove` out of the live grid `count` times, telling of each row before it is
gone. -/
def cycleRows (remove insert : Nat) (direction : Int) : Nat → Terminal → Reaction
  | 0, t => t.quietly
  | count + 1, t =>
    let line := t.live.rowImage remove
    ((t.editLive (·.cycleRows remove insert)).telling [.scrolled line direction]).andThen
      (cycleRows remove insert direction count)

def regionHeight (t : Terminal) : Nat := t.margins.bottom - t.margins.top + 1

def tellingRegion (t : Terminal) : Reaction :=
  t.telling (t.wholeRows (rowsUpTo t.margins.top (t.margins.bottom + 1)))

/-- Scrolls the region up. Beyond its height every further row would be blank already. -/
def scrollUp (t : Terminal) (count : Nat) : Reaction :=
  if count = 0 then t.quietly
  else
    (cycleRows t.margins.top t.margins.bottom 1 (min count t.regionHeight) t).andThen
      tellingRegion

def scrollDown (t : Terminal) (count : Nat) : Reaction :=
  if count = 0 then t.quietly
  else
    (cycleRows t.margins.bottom t.margins.top (-1) (min count t.regionHeight) t).andThen
      tellingRegion

def limitRow (t : Terminal) : Terminal :=
  t.moveTo t.cursor.x (if t.height ≤ t.cursor.y then t.lastRow else t.cursor.y)

/-- Moves down a row. A cursor that comes out just below the region scrolls it and goes back to its
bottom. The cursor is not told: what calls this moves on. -/
def advanceLine (t : Terminal) : Reaction :=
  let bottom := t.margins.bottom
  let down := t.moveTo t.cursor.x (t.cursor.y + 1)
  let settled :=
    if down.cursor.y = bottom + 1 then
      (down.scrollUp 1).andThen fun t => (t.moveTo t.cursor.x bottom).quietly
    else down.quietly
  settled.andThen fun t => t.limitRow.quietly

/-- The next tab stop to the right, or the edge beyond the last column. -/
def nextStop (t : Terminal) : Nat :=
  let columns := rowsUpTo (t.cursor.x + 1) t.width
  (columns.find? fun x => t.tabs[x]?.getD false).getD t.width

def index (t : Terminal) : Reaction :=
  if t.cursor.y = t.margins.bottom then t.scrollUp 1
  else if t.cursor.y + 1 < t.height then (t.moveTo t.cursor.x (t.cursor.y + 1)).tellingCursor
  else t.quietly

def reverseIndex (t : Terminal) : Reaction :=
  if t.cursor.y = t.margins.top then t.scrollDown 1
  else if 0 < t.cursor.y then (t.moveTo t.cursor.x (t.cursor.y - 1)).tellingCursor
  else t.quietly

def returnCarriage (t : Terminal) : Reaction := (t.moveTo 0 t.cursor.y).tellingCursor

def nextLine (t : Terminal) : Reaction := t.index.andThen returnCarriage

def lineFeed (t : Terminal) : Reaction :=
  t.advanceLine.andThen fun t =>
    match t.modes.newLine with
    | .feed => t.tellingCursor
    | .feedAndReturn => t.returnCarriage

/-- Margins from one-based bounds; a missing or zero bound is the edge of the screen. The bottom
is limited to the rows after the first, and the top to the rows above the bottom. -/
def marginsFor (height : Nat) (top bottom : Option Nat) : Margins :=
  let fromEdge (bound : Option Nat) (edge : Nat) : Nat :=
    match bound with
    | none | some 0 => edge - 1
    | some n => n - 1
  let top := fromEdge top 1
  let bottom := fromEdge bottom height
  let top := if bottom ≤ top + 1 then bottom - 1 else top
  let top := min top (height - 2)
  let bottom := max 1 (min bottom (height - 1))
  ⟨if bottom ≤ top then bottom - 1 else top, bottom⟩

def setMargins (t : Terminal) (top bottom : Option Nat) : Reaction :=
  { t with margins := marginsFor t.height top bottom }.goto 0 0

end TermReplay.Terminal

import TermReplay.Check
import TermReplay.Number.Power
import TermReplay.Store.Form

/-!
Snapshots: terminals written to text and read back. A text that has the stored form may still
describe parts that do not fit together, and then the first thing wrong with it is told.
-/

namespace TermReplay

inductive Inconsistency
  | dimensions (width height : Nat)
  | gridSize (width height expectedWidth expectedHeight : Nat)
  | planeLength (plane : String) (length expected : Nat)
  | sizeCount (count expected : Nat)
  | tabCount (count width : Nat)
  | margins (top bottom : Nat)
  | cursor (x y : Nat)
  | savedCount (count depth : Nat)
  | savedCursor (x y : Nat)
  deriving DecidableEq, Repr

namespace Inconsistency

def pair (x y : Nat) : String := "(" ++ toString x ++ ", " ++ toString y ++ ")"

def extent (width height : Nat) : String := toString width ++ "x" ++ toString height

def detail : Inconsistency → String
  | .dimensions w h => "bad dimensions " ++ extent w h
  | .gridSize w h w' h' => "grid is " ++ extent w h ++ ", expected " ++ extent w' h'
  | .planeLength plane n expected =>
    plane ++ " has " ++ toString n ++ " cells, expected " ++ toString expected
  | .sizeCount n expected =>
    "line_attr has " ++ toString n ++ " rows, expected " ++ toString expected
  | .tabCount n width => toString n ++ " tab slots for width " ++ toString width
  | .margins top bottom => "bad margins " ++ toString top ++ "..=" ++ toString bottom
  | .cursor x y => "cursor " ++ pair x y ++ " out of range"
  | .savedCount n depth =>
    "cursor stack holds " ++ toString n ++ " entries with depth " ++ toString depth
  | .savedCursor x y => "saved cursor " ++ pair x y ++ " out of range"

def message (e : Inconsistency) : String := "inconsistent snapshot: " ++ e.detail

end Inconsistency

/-- How a check ends that does not pass. A count beyond a machine word finds nothing: the check
breaks off there. -/
inductive CheckFailure
  | inconsistent (reason : Inconsistency)
  | overflow
  deriving DecidableEq, Repr

namespace Grid

def cellCount? (g : Grid) : Option Nat := Number.product? g.width g.height

/-- Every plane has a value for each cell, and every row a size. -/
def check (g : Grid) : Except CheckFailure Unit :=
  match g.cellCount? with
  | none => .error .overflow
  | some n => do
    let plane (name : String) (size : Nat) : Except CheckFailure Unit :=
      require (size == n) (.inconsistent (.planeLength name size n))
    plane "text" g.text.size
    plane "bold" g.bold.size
    plane "underline" g.underline.size
    plane "lowintensity" g.lowIntensity.size
    plane "blink" g.blink.size
    plane "fcolor" g.foreground.size
    plane "bcolor" g.background.size
    require (g.sizes.size == g.height) (.inconsistent (.sizeCount g.sizes.size g.height))

end Grid

namespace SavedCursors

/-- There is room for the cursors, and each of them fits the terminal. The oldest one that does
not is told. -/
def check (s : SavedCursors) (width height : Nat) : Except CheckFailure Unit := do
  require (1 ≤ s.depth && s.entries.length ≤ s.depth)
    (.inconsistent (.savedCount s.entries.length s.depth))
  match s.entries.reverse.find? fun c => width < c.x || height ≤ c.y with
  | some c => .error (.inconsistent (.savedCursor c.x c.y))
  | none => .ok ()

end SavedCursors

namespace Terminal

def checkGrid (t : Terminal) (g : Grid) : Except CheckFailure Unit := do
  require (g.width == t.width && g.height == t.height)
    (.inconsistent (.gridSize g.width g.height t.width t.height))
  g.check

def check (t : Terminal) : Except CheckFailure Unit := do
  require (1 ≤ t.width && 2 ≤ t.height) (.inconsistent (.dimensions t.width t.height))
  t.checkGrid t.primary
  t.checkGrid t.alternate
  require (t.tabs.size == t.width) (.inconsistent (.tabCount t.tabs.size t.width))
  require (t.margins.top < t.margins.bottom && t.margins.bottom < t.height)
    (.inconsistent (.margins t.margins.top t.margins.bottom))
  require (t.cursor.x ≤ t.width && t.cursor.y < t.height)
    (.inconsistent (.cursor t.cursor.x t.cursor.y))
  t.saved.check t.width t.height

end Terminal

/-- Why a text is no snapshot. The last is no answer about the text: its check broke off. -/
inductive SnapshotError
  | json (fault : Json.Fault)
  | inconsistent (reason : Inconsistency)
  | overflow
  deriving DecidableEq, Repr

namespace Terminal

def toSnapshot (t : Terminal) : String := Stored.toText t

/-- The terminal that a snapshot describes, if its parts fit together. -/
def ofSnapshot (text : String) : Except SnapshotError Terminal :=
  match Stored.ofText text with
  | .error fault => .error (.json fault)
  | .ok (t : Terminal) =>
    match t.check with
    | .error (.inconsistent reason) => .error (.inconsistent reason)
    | .error .overflow => .error .overflow
    | .ok () => .ok t

end Terminal

end TermReplay

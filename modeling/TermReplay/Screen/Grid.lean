import TermReplay.Screen.Plane
import TermReplay.Screen.RowImage
import TermReplay.Text.Blank

/-!
A grid of cells, stored as seven planes of equal length and one size marker for each row. Every
edit is one edit of a plane applied to all seven, so the planes cannot drift apart. Addresses
are those of the grid: outside it nothing is written, and blank cells are read.
-/

namespace TermReplay

structure Grid where
  width : Nat
  height : Nat
  text : Array Char
  bold : Array Bool
  underline : Array Bool
  lowIntensity : Array Bool
  blink : Array Bool
  foreground : Array UInt8
  background : Array UInt8
  sizes : Array LineSize
  deriving DecidableEq, Repr, Inhabited

namespace Grid

def uniform (width height : Nat) (cell : Cell) : Grid :=
  let n := width * height
  { width, height
    text := Array.replicate n cell.char
    bold := Array.replicate n cell.pen.bold
    underline := Array.replicate n cell.pen.underline
    lowIntensity := Array.replicate n cell.pen.lowIntensity
    blink := Array.replicate n cell.pen.blink
    foreground := Array.replicate n cell.pen.foreground
    background := Array.replicate n cell.pen.background
    sizes := Array.replicate height .single }

def blank (width height : Nat) : Grid := uniform width height .blank

def index (g : Grid) (x y : Nat) : Nat := x + y * g.width

/-- Applies one edit to all planes. The edit is told how to read its attribute off a cell. -/
def edit (g : Grid) (f : ∀ {α : Type}, (Cell → α) → Array α → Array α) : Grid :=
  { g with
    text := f (·.char) g.text
    bold := f (·.pen.bold) g.bold
    underline := f (·.pen.underline) g.underline
    lowIntensity := f (·.pen.lowIntensity) g.lowIntensity
    blink := f (·.pen.blink) g.blink
    foreground := f (·.pen.foreground) g.foreground
    background := f (·.pen.background) g.background }

def cellAt (g : Grid) (i : Nat) : Cell :=
  { char := g.text[i]?.getD ' '
    pen :=
      { bold := g.bold[i]?.getD Pen.plain.bold
        underline := g.underline[i]?.getD Pen.plain.underline
        lowIntensity := g.lowIntensity[i]?.getD Pen.plain.lowIntensity
        blink := g.blink[i]?.getD Pen.plain.blink
        foreground := g.foreground[i]?.getD Pen.plain.foreground
        background := g.background[i]?.getD Pen.plain.background } }

def cell (g : Grid) (x y : Nat) : Cell := g.cellAt (g.index x y)

def lineSize (g : Grid) (y : Nat) : LineSize := g.sizes[y]?.getD .single

def set (g : Grid) (x y : Nat) (cell : Cell) : Grid :=
  let i := g.index x y
  g.edit fun part plane => plane.setIfInBounds i (part cell)

def setLineSize (g : Grid) (y : Nat) (size : LineSize) : Grid :=
  { g with sizes := g.sizes.setIfInBounds y size }

def blankSpan (g : Grid) (y first last : Nat) : Grid :=
  let start := g.index first y
  let stop := g.index (last + 1) y
  if last < first then g
  else g.edit fun part plane => Plane.overwrite plane start stop (part .blank)

/-- Blanks rows from `first` up to but not including `stop`, and makes them of normal size. -/
def blankRows (g : Grid) (first stop : Nat) : Grid :=
  let start := g.index 0 first
  let finish := g.index 0 stop
  if stop ≤ first then g
  else
    { g.edit fun part plane => Plane.overwrite plane start finish (part .blank) with
      sizes := Plane.overwrite g.sizes first stop .single }

def blankRow (g : Grid) (y : Nat) : Grid := g.blankRows y (y + 1)

def fill (g : Grid) (char : Char) : Grid :=
  let cell : Cell := { char }
  { g.edit fun part plane => Array.replicate plane.size (part cell) with
    sizes := Array.replicate g.sizes.size .single }

def row (g : Grid) (y : Nat) : List Cell :=
  (List.range g.width).map (g.cell · y)

def rowText (g : Grid) (y : Nat) : String :=
  String.ofList (Plane.row g.text g.width y)

def rowImage (g : Grid) (y : Nat) : RowImage :=
  { text := g.rowText y
    bold := String.ofList ((Plane.row g.bold g.width y).map RowImage.flag)
    underline := String.ofList ((Plane.row g.underline g.width y).map RowImage.flag)
    lowIntensity := String.ofList ((Plane.row g.lowIntensity g.width y).map RowImage.flag)
    blink := String.ofList ((Plane.row g.blink g.width y).map RowImage.flag)
    foreground := String.ofList ((Plane.row g.foreground g.width y).map RowImage.colour)
    background := String.ofList ((Plane.row g.background g.width y).map RowImage.colour)
    size := g.lineSize y }

/-- Takes row `remove` out and puts a blank row in front of what is then row `insert`: a region
scrolls up when its first row is removed and its last inserted, and down the other way round. -/
def cycleRows (g : Grid) (remove insert : Nat) : Grid :=
  let width := g.width
  { g.edit fun part plane => Plane.cycle plane width remove insert (part .blank) with
    sizes := Plane.cycle g.sizes 1 remove insert .single }

/-- Shifts the rest of the row right; its last cell falls off. -/
def insertCell (g : Grid) (x y : Nat) (cell : Cell) : Grid :=
  let start := g.index x y
  let stop := g.index 0 (y + 1)
  g.edit fun part plane => Plane.shiftIn plane start stop (part cell)

/-- Shifts the rest of the row left over the cell at `x`; a blank comes in at the end. -/
def deleteCell (g : Grid) (x y : Nat) : Grid :=
  let start := g.index x y
  let stop := g.index 0 (y + 1)
  g.edit fun part plane => Plane.shiftOut plane start stop (part .blank)

/-- The text of all rows, each without the blanks at its end, one line for each. -/
def screenText (g : Grid) : String :=
  "\n".intercalate ((List.range g.height).map fun y => Text.trimEnd (g.rowText y))

end Grid

end TermReplay

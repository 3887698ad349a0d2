import TermReplay.Terminal.Notice

/-!
What has to be painted again. A watcher that joins the reported changes of each row to one span
of columns until they are taken, and adds the cells the cursor left and entered. It starts with
everything to paint.
-/

namespace TermReplay

/-- Columns of a row, first and last included. -/
structure Span where
  row : Nat
  first : Nat
  last : Nat
  deriving DecidableEq, Repr

structure Repaint where
  width : Nat
  /-- The first and last column to paint, for each row that has any. -/
  rows : Array (Option (Nat × Nat))
  /-- The last reported cursor, on a column that exists. -/
  cursor : Nat × Nat
  /-- The cursor at the last taking. -/
  drawn : Nat × Nat
  deriving DecidableEq, Repr

namespace Repaint

def lastColumn (p : Repaint) : Nat := p.width - 1

def markAll (p : Repaint) : Repaint :=
  { p with rows := Array.replicate p.rows.size (some (0, p.lastColumn)) }

def create (width height : Nat) : Repaint :=
  markAll { width, rows := Array.replicate height none, cursor := (0, 0), drawn := (0, 0) }

def join (span : Option (Nat × Nat)) (first last : Nat) : Nat × Nat :=
  match span with
  | none => (first, last)
  | some (lo, hi) => (min lo first, max hi last)

/-- Adds columns to a row. Rows that do not exist are ignored, and the last column is limited. -/
def mark (p : Repaint) (row first last : Nat) : Repaint :=
  match p.rows[row]? with
  | none => p
  | some span =>
    { p with rows := p.rows.setIfInBounds row (some (join span first (min last p.lastColumn))) }

def isClean (p : Repaint) : Bool :=
  p.rows.all Option.isNone && p.cursor == p.drawn

def spans (p : Repaint) : List Span :=
  p.rows.toList.zipIdx.filterMap fun (span, row) =>
    span.map fun (first, last) => ⟨row, first, last⟩

/-- A cursor that moved leaves a cell to paint at both ends. -/
def markCursor (p : Repaint) : Repaint :=
  if p.cursor = p.drawn then p
  else
    { (p.mark p.cursor.2 p.cursor.1 p.cursor.1).mark p.drawn.2 p.drawn.1 p.drawn.1 with
      drawn := p.cursor }

/-- The spans to paint, and the watcher with nothing left to paint. -/
def take (p : Repaint) : List Span × Repaint :=
  let p := p.markCursor
  (p.spans, { p with rows := Array.replicate p.rows.size none })

def watch (p : Repaint) : Notice → Repaint
  | .change row first last => p.mark row first last
  | .cursor x y => { p with cursor := (min x p.lastColumn, y) }
  | .replaced => p.markAll
  | _ => p

end Repaint

end TermReplay

import TermReplay.Proofs.GridTable
import TermReplay.Proofs.ListShifts
import TermReplay.Proofs.Preservation

/-!
Edits of a grid that are repeated. Taking rows out of a region one by one shifts the region of the
table, and inserting or deleting cells one by one shifts the end of a row. The number of steps is
limited to what is there to shift, which makes no difference.
-/

namespace TermReplay.Grid

open Shift (within out into IsShift)

variable {g : Grid} {width height : Nat}

theorem table_repeat {f : Grid → Grid} {e : List Line → List Line}
    (hfits : ∀ g : Grid, g.Fits width height → (f g).Fits width height)
    (hstep : ∀ g : Grid, g.Fits width height → (f g).table = e g.table) (count : Nat)
    (h : g.Fits width height) :
    (Nat.repeat f count g).table = Nat.repeat e count g.table := by
  induction count with
  | zero => rfl
  | succ count ih =>
      rw [Nat.repeat, hstep _ (Terminal.repeat_fits hfits count h), ih, Nat.repeat]

/-- A shift of some rows, step by step. -/
theorem table_repeat_rows {f : Grid → Grid} {shift : Nat → List Line → List Line}
    {first stop : Nat} (hshift : IsShift shift) (hs : first ≤ stop) (hl : stop ≤ height)
    (hfits : ∀ g : Grid, g.Fits width height → (f g).Fits width height)
    (hstep : ∀ g : Grid, g.Fits width height → (f g).table = within first stop (shift 1) g.table)
    (h : g.Fits width height) (count : Nat) :
    (Nat.repeat f (min count (stop - first)) g).table =
      within first stop (shift count) g.table := by
  have hlength : stop ≤ g.table.length := h.length_table ▸ hl
  rw [table_repeat hfits hstep _ h, hshift.repeat_within hs hlength, hshift.within_min hs hlength]

/-- Of an edit of a row only what it does to as many cells as a row has is of interest. -/
theorem Fits.modify_cells_congr (h : g.Fits width height) {f f' : List Cell → List Cell}
    (heq : ∀ cells : List Cell, cells.length = width → f cells = f' cells) (y : Nat) :
    g.table.modify y (Line.mapCells f) = g.table.modify y (Line.mapCells f') := by
  refine Shift.modify_congr (fun line hm => ?_) y
  exact congrArg (Line.mk · line.size) (heq line.cells (h.reads_table.widths line hm))

/-- A shift of some cells of a row, step by step. -/
theorem table_repeat_cells {f : Grid → Grid} {shift : Nat → List Cell → List Cell}
    {x y : Nat} (hshift : IsShift shift) (hx : x ≤ width)
    (hfits : ∀ g : Grid, g.Fits width height → (f g).Fits width height)
    (hstep : ∀ g : Grid, g.Fits width height →
      (f g).table = g.table.modify y (Line.mapCells (within x width (shift 1))))
    (h : g.Fits width height) (count : Nat) :
    (Nat.repeat f (min count (width - x)) g).table =
      g.table.modify y (Line.mapCells (within x width (shift count))) := by
  have hmap : ∀ count, Nat.repeat (Line.mapCells (within x width (shift 1))) count =
      Line.mapCells (Nat.repeat (within x width (shift 1)) count) := by
    intro count
    funext line
    induction count with
    | zero => rfl
    | succ count ih => rw [Nat.repeat, ih]; rfl
  rw [table_repeat (e := (·.modify y (Line.mapCells (within x width (shift 1))))) hfits hstep _ h,
    Shift.repeat_modify, hmap]
  refine h.modify_cells_congr (fun cells hwidth => ?_) y
  have hlength : width ≤ cells.length := Nat.le_of_eq hwidth.symm
  rw [hshift.repeat_within hx hlength, hshift.within_min hx hlength]

namespace Fits

/-- Rows taken out at the top of a region. -/
theorem table_cycleRows_up (h : g.Fits width height) {first last : Nat} (hs : first ≤ last)
    (hl : last < height) (count : Nat) :
    (Nat.repeat (·.cycleRows first last) (min count (last + 1 - first)) g).table =
      within first (last + 1) (out count (.blank width)) g.table := by
  have hf : first < height := Nat.lt_of_le_of_lt hs hl
  refine table_repeat_rows (Shift.out_isShift (.blank width)) (Nat.le_succ_of_le hs) hl
    (fun g hg => hg.cycleRows hf hl) (fun g hg => ?_) h count
  rw [hg.table_cycleRows hf hl, Shift.insertIdx_eraseIdx_out _ hs (hg.length_table ▸ hl)]

/-- Rows taken out at the bottom of a region. -/
theorem table_cycleRows_down (h : g.Fits width height) {first last : Nat} (hs : first ≤ last)
    (hl : last < height) (count : Nat) :
    (Nat.repeat (·.cycleRows last first) (min count (last + 1 - first)) g).table =
      within first (last + 1) (into count (.blank width)) g.table := by
  have hf : first < height := Nat.lt_of_le_of_lt hs hl
  refine table_repeat_rows (Shift.into_isShift (.blank width)) (Nat.le_succ_of_le hs) hl
    (fun g hg => hg.cycleRows hl hf) (fun g hg => ?_) h count
  rw [hg.table_cycleRows hl hf, Shift.insertIdx_eraseIdx_into _ hs (hg.length_table ▸ hl)]

variable {x y : Nat}

theorem table_deleteCells (h : g.Fits width height) (hx : x < width) (hy : y < height)
    (count : Nat) :
    (Nat.repeat (·.deleteCell x y) (min count (width - x)) g).table =
      g.table.modify y (Line.mapCells (within x width (out count .blank))) := by
  refine table_repeat_cells (Shift.out_isShift .blank) (Nat.le_of_lt hx)
    (fun g hg => hg.deleteCell hx hy) (fun g hg => ?_) h count
  rw [hg.table_deleteCell hx hy]
  refine hg.modify_cells_congr (fun cells hwidth => ?_) y
  rw [Shift.eraseIdx_append_out _ (hwidth ▸ hx), hwidth]

theorem table_insertCells (h : g.Fits width height) (hx : x < width) (hy : y < height)
    (cell : Cell) (count : Nat) :
    (Nat.repeat (·.insertCell x y cell) (min count (width - x)) g).table =
      g.table.modify y (Line.mapCells (within x width (into count cell))) := by
  refine table_repeat_cells (Shift.into_isShift cell) (Nat.le_of_lt hx)
    (fun g hg => hg.insertCell cell hx hy) (fun g hg => ?_) h count
  rw [hg.table_insertCell cell hx hy]
  refine hg.modify_cells_congr (fun cells hwidth => ?_) y
  rw [Shift.dropLast_insertIdx_into _ (hwidth ▸ hx), hwidth]

end Fits

end TermReplay.Grid

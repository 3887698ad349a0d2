import Mathlib.Data.List.Basic
import TermReplay.Proofs.CheckedGrids
import TermReplay.Proofs.RowImages

/-!
A grid as a plain table: the list of its rows, each the list of its cells with the size of the
row. Every edit of the planes, with every index looked at, is the edit of the table that one
would write down for it, and what is read of a row is read off its line of the table.
-/

namespace TermReplay

structure Line where
  cells : List Cell
  size : LineSize
  deriving DecidableEq, Repr

namespace Line

def blank (width : Nat) : Line := ⟨List.replicate width .blank, .single⟩

def mapCells (f : List Cell → List Cell) (line : Line) : Line := { line with cells := f line.cells }

def text (line : Line) : String := String.ofList (line.cells.map (·.char))

def image (line : Line) : RowImage := .ofCells line.cells line.size

theorem mapCells_comp (f f' : List Cell → List Cell) :
    mapCells f ∘ mapCells f' = mapCells (f ∘ f') :=
  rfl

end Line

def Grid.table (g : Grid) : List Line :=
  (List.range g.height).map fun y => ⟨g.row y, g.lineSize y⟩

inductive GridEdit
  | set (x y : Nat) (cell : Cell)
  | setLineSize (y : Nat) (size : LineSize)
  | blankSpan (y first last : Nat)
  | blankRow (y : Nat)
  | fill (char : Char)
  | insertCell (x y : Nat) (cell : Cell)
  | deleteCell (x y : Nat)
  | cycleRows (remove insert : Nat)
  deriving DecidableEq, Repr

namespace GridEdit

/-- The addresses lie in a grid of the given size. A span that ends before it begins is empty,
wherever it begins. -/
def Inside (width height : Nat) : GridEdit → Prop
  | set x y _ | insertCell x y _ | deleteCell x y => x < width ∧ y < height
  | setLineSize y _ | blankRow y => y < height
  | blankSpan y _ last => last < width ∧ y < height
  | fill _ => True
  | cycleRows remove insert => remove < height ∧ insert < height

def onGrid (g : Grid) : GridEdit → Grid
  | set x y cell => g.set x y cell
  | setLineSize y size => g.setLineSize y size
  | blankSpan y first last => g.blankSpan y first last
  | blankRow y => g.blankRow y
  | fill char => g.fill char
  | insertCell x y cell => g.insertCell x y cell
  | deleteCell x y => g.deleteCell x y
  | cycleRows remove insert => g.cycleRows remove insert

/-- The edit as machine steps, which fail where an index is out of range. -/
def onGrid? (g : Grid) : GridEdit → Option Grid
  | set x y cell => g.set? x y cell
  | setLineSize y size => g.setLineSize? y size
  | blankSpan y first last => g.blankSpan? y first last
  | blankRow y => g.blankRow? y
  | fill char => g.fill? char
  | insertCell x y cell => g.insertCell? x y cell
  | deleteCell x y => g.deleteCell? x y
  | cycleRows remove insert => (g.cycleRows? remove insert).map (·.2)

def onTable (width : Nat) (table : List Line) : GridEdit → List Line
  | set x y cell => table.modify y (Line.mapCells (·.set x cell))
  | setLineSize y size => table.modify y fun line => { line with size }
  | blankSpan y first last =>
      table.modify y (Line.mapCells (·.mapIdx fun x cell =>
        if first ≤ x ∧ x ≤ last then .blank else cell))
  | blankRow y => table.set y (.blank width)
  | fill char => table.map fun line => ⟨line.cells.map fun _ => { char }, .single⟩
  | insertCell x y cell => table.modify y (Line.mapCells fun cells =>
      (cells.insertIdx x cell).dropLast)
  | deleteCell x y => table.modify y (Line.mapCells fun cells => cells.eraseIdx x ++ [.blank])
  | cycleRows remove insert => (table.eraseIdx remove).insertIdx insert (.blank width)

end GridEdit

namespace Grid

variable {g g' : Grid} {width height : Nat}

theorem Fits.length_row (h : g.Fits width height) (y : Nat) : (g.row y).length = width := by
  rw [row, List.length_map, List.length_range, h.width_eq]

theorem Fits.getElem?_row (h : g.Fits width height) {x : Nat} (hx : x < width) (y : Nat) :
    (g.row y)[x]? = some (g.cell x y) := by
  rw [row, List.getElem?_map, h.width_eq, List.getElem?_range hx]
  rfl

theorem Fits.row_eq_of (h : g.Fits width height) {y : Nat} {cells : List Cell}
    (hl : cells.length = width) (hc : ∀ x, x < width → cells[x]? = some (g.cell x y)) :
    g.row y = cells := by
  have hlen := h.length_row y
  apply List.ext_getElem?
  intro x
  by_cases hx : x < width
  · rw [hc x hx, h.getElem?_row hx]
  · rw [List.getElem?_eq_none (by omega), List.getElem?_eq_none (by omega)]

theorem Fits.length_table (h : g.Fits width height) : g.table.length = height := by
  rw [table, List.length_map, List.length_range, h.height_eq]

theorem Fits.getElem?_table (h : g.Fits width height) {y : Nat} (hy : y < height) :
    g.table[y]? = some ⟨g.row y, g.lineSize y⟩ := by
  rw [table, List.getElem?_map, h.height_eq, List.getElem?_range hy]
  rfl

theorem Fits.table_eq_of (h : g.Fits width height) {lines : List Line} (hl : lines.length = height)
    (hy : ∀ y, y < height → lines[y]? = some ⟨g.row y, g.lineSize y⟩) : g.table = lines := by
  have hlen := h.length_table
  apply List.ext_getElem?
  intro y
  by_cases hlt : y < height
  · rw [hy y hlt, h.getElem?_table hlt]
  · rw [List.getElem?_eq_none (by omega), List.getElem?_eq_none (by omega)]

/-- The table leaves nothing out. -/
theorem eq_of_table_eq (h : g.Fits width height) (h' : g'.Fits width height)
    (ht : g.table = g'.table) : g = g' := by
  have hline : ∀ y, y < height → g.row y = g'.row y ∧ g.lineSize y = g'.lineSize y := by
    intro y hy
    rw [← Line.mk.injEq, ← Option.some.injEq, ← h.getElem?_table hy, ht, h'.getElem?_table hy]
  refine ext_cells h h' ?_ fun y hy => (hline y hy).2
  intro x y hx hy
  rw [← Option.some.injEq, ← h.getElem?_row hx, (hline y hy).1, h'.getElem?_row hx]

theorem Fits.table_modify (h : g.Fits width height) (h' : g'.Fits width height) {y : Nat}
    {f : Line → Line} (hline : f ⟨g.row y, g.lineSize y⟩ = ⟨g'.row y, g'.lineSize y⟩)
    (hcell : ∀ x row, x < width → row ≠ y → g'.cell x row = g.cell x row)
    (hsize : ∀ row, row ≠ y → g'.lineSize row = g.lineSize row) :
    g'.table = g.table.modify y f := by
  refine h'.table_eq_of (by rw [List.length_modify, h.length_table]) ?_
  intro row hrow
  rw [List.getElem?_modify, h.getElem?_table hrow, Option.map_eq_map, Option.map_some]
  by_cases he : y = row
  · subst he
    rw [if_pos rfl, hline]
  · have hsame : g'.row row = g.row row :=
      h'.row_eq_of (h.length_row row) fun x hx => by
        rw [h.getElem?_row hx, hcell x row hx (Ne.symm he)]
    rw [if_neg he, hsame, hsize row (Ne.symm he)]

/-- An edit of the cells of one line. -/
theorem Fits.table_modify_cells (h : g.Fits width height) (h' : g'.Fits width height) {y : Nat}
    {f : List Cell → List Cell} (hlen : (f (g.row y)).length = width)
    (hy : ∀ x, x < width → (f (g.row y))[x]? = some (g'.cell x y))
    (hcell : ∀ x row, x < width → row ≠ y → g'.cell x row = g.cell x row)
    (hsize : ∀ row, g'.lineSize row = g.lineSize row) :
    g'.table = g.table.modify y (Line.mapCells f) := by
  refine h.table_modify h' ?_ hcell fun row _ => hsize row
  rw [Line.mapCells, h'.row_eq_of hlen hy, hsize y]

theorem Fits.table_set (h : g.Fits width height) {x y : Nat} (cell : Cell) (hx : x < width)
    (hy : y < height) :
    (g.set x y cell).table = g.table.modify y (Line.mapCells (·.set x cell)) := by
  have hlen := h.length_row y
  refine h.table_modify_cells (h.set x y cell) (by rw [List.length_set, hlen]) ?_ ?_
    (lineSize_set x y · cell)
  · intro x' hx'
    rw [List.getElem?_set, h.getElem?_row hx', cell_set h cell hx hy hx']
    by_cases he : x = x'
    · rw [if_pos he, if_pos (by omega), if_pos ⟨he.symm, rfl⟩]
    · rw [if_neg he, if_neg fun h => he h.1.symm]
  · intro x' row hx' hrow
    rw [cell_set h cell hx hy hx', if_neg fun h => hrow h.2]

theorem Fits.table_setLineSize (h : g.Fits width height) {y : Nat} (size : LineSize)
    (hy : y < height) :
    (g.setLineSize y size).table = g.table.modify y fun line => { line with size } := by
  refine h.table_modify (h.setLineSize y size) ?_ (fun x row _ _ => cell_setLineSize ..) ?_
  · rw [lineSize_setLineSize h hy, if_pos rfl]
    rfl
  · intro row hrow
    rw [lineSize_setLineSize h hy, if_neg hrow]

theorem Fits.table_blankSpan (h : g.Fits width height) {y first last : Nat} (hl : last < width)
    (hy : y < height) :
    (g.blankSpan y first last).table = g.table.modify y (Line.mapCells (·.mapIdx fun x cell =>
      if first ≤ x ∧ x ≤ last then .blank else cell)) := by
  refine h.table_modify_cells (h.blankSpan hl hy) (by rw [List.length_mapIdx, h.length_row]) ?_ ?_
    (lineSize_blankSpan y · first last)
  · intro x hx
    rw [List.getElem?_mapIdx, h.getElem?_row hx, cell_blankSpan h hl hy hx, Option.map_some]
    simp only [true_and]
  · intro x row hx hrow
    rw [cell_blankSpan h hl hy hx, if_neg fun h => hrow h.1]

theorem Fits.table_insertCell (h : g.Fits width height) {x y : Nat} (cell : Cell) (hx : x < width)
    (hy : y < height) :
    (g.insertCell x y cell).table = g.table.modify y (Line.mapCells fun cells =>
      (cells.insertIdx x cell).dropLast) := by
  have hlen := h.length_row y
  have hlonger : ((g.row y).insertIdx x cell).length = width + 1 := by
    rw [List.length_insertIdx, if_pos (by omega), hlen]
  refine h.table_modify_cells (h.insertCell cell hx hy) ?_ ?_ ?_ (lineSize_insertCell x y · cell)
  · rw [List.length_dropLast, hlonger, Nat.add_sub_cancel]
  · intro x' hx'
    rw [List.getElem?_dropLast, if_pos (by omega), List.getElem?_insertIdx,
      cell_insertCell h cell hx hy hx']
    by_cases hlt : x' < x
    · rw [if_pos hlt, if_neg (by omega), h.getElem?_row hx']
    · have hy' : y = y ∧ x ≤ x' := ⟨rfl, Nat.le_of_not_lt hlt⟩
      rw [if_neg hlt, if_pos hy']
      by_cases he : x' = x
      · rw [if_pos he, if_pos he, if_pos (by omega)]
      · rw [if_neg he, if_neg he, h.getElem?_row (by omega)]
  · intro x' row hx' hrow
    rw [cell_insertCell h cell hx hy hx', if_neg fun h => hrow h.1]

theorem Fits.table_deleteCell (h : g.Fits width height) {x y : Nat} (hx : x < width)
    (hy : y < height) :
    (g.deleteCell x y).table = g.table.modify y (Line.mapCells fun cells =>
      cells.eraseIdx x ++ [.blank]) := by
  have hlen := h.length_row y
  have hshorter : ((g.row y).eraseIdx x).length = width - 1 := by
    rw [List.length_eraseIdx_of_lt (by omega), hlen]
  refine h.table_modify_cells (h.deleteCell hx hy) ?_ ?_ ?_ (lineSize_deleteCell x y)
  · rw [List.length_append, hshorter, List.length_singleton]
    omega
  · intro x' hx'
    rw [cell_deleteCell h hx hy hx']
    by_cases hlast : x' + 1 = width
    · rw [List.getElem?_append_right (by omega), hshorter, if_pos (by omega), if_pos hlast,
        show x' - (width - 1) = 0 by omega]
      rfl
    · rw [List.getElem?_append_left (by omega), List.getElem?_eraseIdx, if_neg hlast]
      by_cases hlt : x' < x
      · rw [if_pos hlt, if_neg (by omega), h.getElem?_row hx']
      · rw [if_neg hlt, if_pos (by omega), h.getElem?_row (by omega)]
  · intro x' row hx' hrow
    rw [cell_deleteCell h hx hy hx', if_neg fun h => hrow h.1]

theorem Fits.table_blankRow (h : g.Fits width height) {y : Nat} (hy : y < height) :
    (g.blankRow y).table = g.table.set y (.blank width) := by
  have hpaints := blankRow_paints width height
  rw [List.set_eq_modify]
  refine h.table_modify (hpaints.fits h hy) ?_ ?_ ?_
  · rw [Line.blank, hpaints.size_eq h hy, if_pos rfl,
      (hpaints.fits h hy).row_eq_of List.length_replicate]
    intro x hx
    rw [hpaints.cell_eq h hy hx, if_pos rfl, List.getElem?_replicate, if_pos hx]
  · intro x row hx hrow
    rw [hpaints.cell_eq h hy hx, if_neg hrow]
  · intro row hrow
    rw [hpaints.size_eq h hy, if_neg hrow]

theorem Fits.table_fill (h : g.Fits width height) (char : Char) :
    (g.fill char).table = g.table.map fun line =>
      ⟨line.cells.map fun _ => { char }, .single⟩ := by
  refine (h.fill char).table_eq_of (by rw [List.length_map, h.length_table]) ?_
  intro y hy
  have hrow : (g.fill char).row y = (g.row y).map fun _ => { char } := by
    refine (h.fill char).row_eq_of (by rw [List.length_map, h.length_row]) ?_
    intro x hx
    rw [List.getElem?_map, h.getElem?_row hx, Option.map_some, cell_fill h char hx hy]
  rw [List.getElem?_map, h.getElem?_table hy, Option.map_some, hrow, lineSize_fill h char hy]

/-- A list with one entry taken out and then another put in. -/
theorem getElem?_insertIdx_eraseIdx {α : Type} {lines : List α} {remove insert : Nat} (line : α)
    (hr : remove < lines.length) (hi : insert < lines.length) (y : Nat) :
    ((lines.eraseIdx remove).insertIdx insert line)[y]? =
      match Plane.cycleSource remove insert y with
      | none => some line
      | some row => lines[row]? := by
  have hlen : (lines.eraseIdx remove).length = lines.length - 1 := List.length_eraseIdx_of_lt hr
  rw [List.getElem?_insertIdx]
  obtain hlt | rfl | hgt := Nat.lt_trichotomy y insert
  · rw [if_pos hlt, List.getElem?_eraseIdx, Plane.cycleSource_of_lt hlt]
    split <;> rfl
  · rw [if_neg (Nat.lt_irrefl y), if_pos rfl, if_pos (by omega), Plane.cycleSource_self]
  · rw [if_neg (by omega), if_neg (by omega), List.getElem?_eraseIdx, Plane.cycleSource_of_gt hgt,
      Nat.sub_add_cancel (Nat.one_le_of_lt hgt)]
    split <;> rfl

theorem Fits.table_cycleRows (h : g.Fits width height) {remove insert : Nat}
    (hr : remove < height) (hi : insert < height) :
    (g.cycleRows remove insert).table =
      (g.table.eraseIdx remove).insertIdx insert (.blank width) := by
  have hlen := h.length_table
  have hfits := h.cycleRows hr hi
  refine hfits.table_eq_of ?_ ?_
  · rw [List.length_insertIdx, List.length_eraseIdx_of_lt (by omega), if_pos (by omega)]
    omega
  · intro y hy
    rw [getElem?_insertIdx_eraseIdx _ (by omega) (by omega), lineSize_cycleRows h hr hi]
    cases hsource : Plane.cycleSource remove insert y with
    | none =>
        rw [Line.blank, hfits.row_eq_of List.length_replicate]
        intro x hx
        rw [cell_cycleRows h hr hi hx, hsource, List.getElem?_replicate, if_pos hx]
    | some row =>
        have hrow : row < height := Plane.cycleSource_lt hsource hr hi hy
        have hsame : (g.cycleRows remove insert).row y = g.row row := by
          refine hfits.row_eq_of (h.length_row row) ?_
          intro x hx
          rw [cell_cycleRows h hr hi hx, hsource, h.getElem?_row hx]
        simp only [h.getElem?_table hrow, hsame]

/-- All that is read of the grid is read off the table. -/
structure Reads (g : Grid) (width height : Nat) (table : List Line) : Prop where
  length_eq : table.length = height
  widths : ∀ line ∈ table, line.cells.length = width
  cell_eq : ∀ {y line x cell}, table[y]? = some line → line.cells[x]? = some cell →
    g.cell x y = cell
  size_eq : ∀ {y line}, table[y]? = some line → g.lineSize y = line.size
  text_eq : ∀ {y line}, table[y]? = some line → g.rowText y = line.text
  image_eq : ∀ {y line}, table[y]? = some line → g.rowImage? y = some line.image

theorem Fits.reads_table (h : g.Fits width height) : g.Reads width height g.table := by
  have hline : ∀ {y line}, g.table[y]? = some line →
      y < height ∧ line = ⟨g.row y, g.lineSize y⟩ := by
    intro y line hl
    have hy : y < height := h.length_table ▸ (List.getElem?_eq_some_iff.mp hl).1
    rw [h.getElem?_table hy] at hl
    exact ⟨hy, (Option.some.inj hl).symm⟩
  constructor
  · exact h.length_table
  · intro line hm
    obtain ⟨y, hl⟩ := List.mem_iff_getElem?.mp hm
    obtain ⟨-, rfl⟩ := hline hl
    exact h.length_row y
  · intro y line x cell hl hc
    obtain ⟨-, rfl⟩ := hline hl
    have hx : x < width := h.length_row y ▸ (List.getElem?_eq_some_iff.mp hc).1
    rw [h.getElem?_row hx] at hc
    exact Option.some.inj hc
  · intro y line hl
    obtain ⟨-, rfl⟩ := hline hl
    rfl
  · intro y line hl
    obtain ⟨hy, rfl⟩ := hline hl
    exact congrArg RowImage.text (h.rowImage_eq hy)
  · intro y line hl
    obtain ⟨hy, rfl⟩ := hline hl
    rw [h.rowImage?_eq hy, h.rowImage_eq hy]
    rfl

/-- The row that a cycle takes out is reported as it was in the table. -/
theorem Fits.cycleRows?_line (h : g.Fits width height) {remove insert : Nat} {line : Line}
    (hi : insert < height) (hl : g.table[remove]? = some line) :
    (g.cycleRows? remove insert).map (·.1) = some line.image := by
  have hr : remove < height := h.length_table ▸ (List.getElem?_eq_some_iff.mp hl).1
  have himage := h.reads_table.image_eq hl
  rw [h.rowImage?_eq hr, Option.some.injEq] at himage
  rw [h.cycleRows?_eq hr hi, Option.map_some, himage]

end Grid

namespace GridEdit

variable {g : Grid} {width height : Nat}

theorem onGrid?_eq (h : g.Fits width height) (hw : 1 ≤ width) {e : GridEdit}
    (hin : e.Inside width height) : onGrid? g e = some (onGrid g e) := by
  cases e with
  | set x y cell => exact h.set?_eq cell hin.1 hin.2
  | setLineSize y size => exact h.setLineSize?_eq size hin
  | blankSpan y first last => exact h.blankSpan?_eq hin.1 hin.2
  | blankRow y => exact h.blankRow?_eq hw hin
  | fill char => exact h.fill?_eq char
  | insertCell x y cell => exact h.insertCell?_eq cell hin.1 hin.2
  | deleteCell x y => exact h.deleteCell?_eq hin.1 hin.2
  | cycleRows remove insert =>
      rw [onGrid?, h.cycleRows?_eq hin.1 hin.2]
      rfl

theorem onGrid_fits (h : g.Fits width height) {e : GridEdit} (hin : e.Inside width height) :
    (onGrid g e).Fits width height := by
  cases e with
  | set x y cell => exact h.set x y cell
  | setLineSize y size => exact h.setLineSize y size
  | blankSpan y first last => exact h.blankSpan hin.1 hin.2
  | blankRow y => exact h.blankRows hin
  | fill char => exact h.fill char
  | insertCell x y cell => exact h.insertCell cell hin.1 hin.2
  | deleteCell x y => exact h.deleteCell hin.1 hin.2
  | cycleRows remove insert => exact h.cycleRows hin.1 hin.2

theorem table_onGrid (h : g.Fits width height) {e : GridEdit} (hin : e.Inside width height) :
    (onGrid g e).table = onTable width g.table e := by
  cases e with
  | set x y cell => exact h.table_set cell hin.1 hin.2
  | setLineSize y size => exact h.table_setLineSize size hin
  | blankSpan y first last => exact h.table_blankSpan hin.1 hin.2
  | blankRow y => exact h.table_blankRow hin
  | fill char => exact h.table_fill char
  | insertCell x y cell => exact h.table_insertCell cell hin.1 hin.2
  | deleteCell x y => exact h.table_deleteCell hin.1 hin.2
  | cycleRows remove insert => exact h.table_cycleRows hin.1 hin.2

theorem table_foldl_onGrid (h : g.Fits width height) {edits : List GridEdit}
    (hin : ∀ e ∈ edits, e.Inside width height) :
    (edits.foldl onGrid g).table = edits.foldl (onTable width) g.table := by
  induction edits generalizing g with
  | nil => rfl
  | cons e edits ih =>
      have he := hin e (List.mem_cons_self ..)
      rw [List.foldl_cons, List.foldl_cons, ← table_onGrid h he]
      exact ih (onGrid_fits h he) fun e hm => hin e (List.mem_cons_of_mem _ hm)

/-- Edits with all their addresses in the grid never fail. They leave a grid whose planes fit,
whose table is the one that the same edits make of the table before, and of which nothing else
than this table is read. -/
theorem run_refines_table (h : g.Fits width height) (hw : 1 ≤ width) {edits : List GridEdit}
    (hin : ∀ e ∈ edits, e.Inside width height) :
    ∃ g', edits.foldlM onGrid? g = some g' ∧ edits.foldl onGrid g = g' ∧
      g'.Fits width height ∧ g'.table = edits.foldl (onTable width) g.table ∧
      g'.Reads width height (edits.foldl (onTable width) g.table) := by
  obtain ⟨hrun, hfits⟩ := Grid.foldlM_eq_some (P := fun g : Grid => g.Fits width height)
    (fun g hg e hm => ⟨onGrid?_eq hg hw (hin e hm), onGrid_fits hg (hin e hm)⟩) h
  have htable := table_foldl_onGrid h hin
  exact ⟨_, hrun, rfl, hfits, htable, htable ▸ hfits.reads_table⟩

/-- Rows shift both ways, and cycle upwards, downwards and in place; the wide row moves along. -/
theorem run_refines_table_of_cycles :
    let g := Grid.uniform 3 3 { char := '.', pen := { bold := true } }
    let edits : List GridEdit :=
      [.set 2 0 { char := 'z' }, .setLineSize 1 { width := .double },
        .insertCell 0 0 { char := 'a' }, .deleteCell 1 1, .cycleRows 2 0, .cycleRows 0 2,
        .cycleRows 2 2, .blankSpan 0 2 1]
    (edits.foldl (onTable 3) g.table).map (fun line => (line.text, line.size.width)) =
        [("a..", .normal), (".. ", .double), ("   ", .normal)] ∧
      ∃ g', edits.foldlM onGrid? g = some g' ∧ edits.foldl onGrid g = g' ∧ g'.Fits 3 3 ∧
        g'.table = edits.foldl (onTable 3) g.table ∧
        g'.Reads 3 3 (edits.foldl (onTable 3) g.table) := by
  intro g edits
  refine ⟨by decide, run_refines_table (Grid.uniform_fits 3 3 _) (by decide) ?_⟩
  simp [edits, Inside]

end GridEdit

end TermReplay

import TermReplay.Proofs.GridCells

/-!
Grids written row by row: runs of single cells in one row, and whole rows painted one after the
other.
-/

namespace TermReplay.Grid

variable {g : Grid} {width height : Nat}

def setColumns (g : Grid) (y : Nat) (columns : List Nat) (cells : Nat → Cell) : Grid :=
  columns.foldl (fun g x => g.set x y (cells x)) g

theorem Fits.setColumns (h : g.Fits width height) (y : Nat) (columns : List Nat)
    (cells : Nat → Cell) : (g.setColumns y columns cells).Fits width height := by
  induction columns generalizing g with
  | nil => exact h
  | cons x columns ih => exact ih (h.set x y (cells x))

theorem cell_setColumns (h : g.Fits width height) {y : Nat} {columns : List Nat}
    (cells : Nat → Cell)
    (hc : ∀ x ∈ columns, x < width) (hy : y < height) {x' : Nat} (hx' : x' < width) (y' : Nat) :
    (g.setColumns y columns cells).cell x' y' =
      if y' = y ∧ x' ∈ columns then cells x' else g.cell x' y' := by
  induction columns generalizing g with
  | nil => simp [setColumns]
  | cons x columns ih =>
      have hrest := ih (h.set x y (cells x)) fun x hx => hc x (List.mem_cons_of_mem _ hx)
      rw [cell_set h (cells x) (hc x (List.mem_cons_self ..)) hy hx'] at hrest
      rw [setColumns, List.foldl_cons, ← setColumns, hrest]
      by_cases hm : y' = y ∧ x' ∈ columns
      · rw [if_pos hm, if_pos ⟨hm.1, List.mem_cons_of_mem _ hm.2⟩]
      · rw [if_neg hm]
        by_cases he : x' = x ∧ y' = y
        · rw [if_pos he, if_pos ⟨he.2, he.1 ▸ List.mem_cons_self ..⟩, he.1]
        · rw [if_neg he, if_neg]
          rintro ⟨hrow, hcolumn⟩
          obtain hx | hx := List.mem_cons.mp hcolumn
          · exact he ⟨hx, hrow⟩
          · exact hm ⟨hrow, hx⟩

theorem lineSize_setColumns (y : Nat) (columns : List Nat) (cells : Nat → Cell) (y' : Nat) :
    (g.setColumns y columns cells).lineSize y' = g.lineSize y' := by
  induction columns generalizing g with
  | nil => rfl
  | cons x columns ih => exact ih

/-- A step that makes every cell of a row `cell` and the row one of normal size. -/
structure Paints (paint : Grid → Nat → Grid) (cell : Cell) (width height : Nat) : Prop where
  fits : ∀ {g : Grid} {y : Nat}, g.Fits width height → y < height →
    (paint g y).Fits width height
  cell_eq : ∀ {g : Grid} {y x : Nat}, g.Fits width height → y < height → x < width →
    ∀ row, (paint g y).cell x row = if row = y then cell else g.cell x row
  size_eq : ∀ {g : Grid} {y : Nat}, g.Fits width height → y < height →
    ∀ row, (paint g y).lineSize row = if row = y then .single else g.lineSize row

/-- A run over rows makes the cells of these rows `cell`, and leaves all others. -/
theorem Paints.run {paint : Grid → Nat → Grid} {cell : Cell} (hp : Paints paint cell width height)
    (h : g.Fits width height) {rows : List Nat} (hr : ∀ y ∈ rows, y < height) :
    (rows.foldl paint g).Fits width height ∧
      (∀ x y, x < width →
        (rows.foldl paint g).cell x y = if y ∈ rows then cell else g.cell x y) ∧
      ∀ y, (rows.foldl paint g).lineSize y = if y ∈ rows then .single else g.lineSize y := by
  induction rows generalizing g with
  | nil => exact ⟨h, by simp, by simp⟩
  | cons row rows ih =>
      have hrow := hr row (List.mem_cons_self ..)
      obtain ⟨hfits, hcell, hsize⟩ :=
        ih (hp.fits h hrow) fun y hy => hr y (List.mem_cons_of_mem _ hy)
      refine ⟨hfits, ?_, ?_⟩
      · intro x y hx
        rw [List.foldl_cons, hcell x y hx, hp.cell_eq h hrow hx]
        by_cases hy : y = row <;> simp [hy]
      · intro y
        rw [List.foldl_cons, hsize y, hp.size_eq h hrow]
        by_cases hy : y = row <;> simp [hy]

theorem blankRow_paints (width height : Nat) : Paints blankRow .blank width height where
  fits h hy := h.blankRows hy
  cell_eq h hy hx row := by
    rw [blankRow, cell_blankRows h hy hx]
    exact ite_congr (propext (by omega)) (fun _ => rfl) fun _ => rfl
  size_eq h hy row := by
    rw [blankRow, lineSize_blankRows h hy]
    exact ite_congr (propext (by omega)) (fun _ => rfl) fun _ => rfl

theorem setColumns_paints (cell : Cell) {columns : List Nat}
    (hc : ∀ x, x ∈ columns ↔ x < width) (height : Nat) :
    Paints (fun g y => (g.setColumns y columns fun _ => cell).setLineSize y .single) cell width
      height where
  fits h hy := (h.setColumns ..).setLineSize _ _
  cell_eq h hy hx row := by
    rw [cell_setLineSize, cell_setColumns h _ (fun x => (hc x).mp) hy hx]
    simp only [hc, hx, and_true]
  size_eq h hy row := by
    rw [lineSize_setLineSize (h.setColumns ..) hy, lineSize_setColumns]

end TermReplay.Grid

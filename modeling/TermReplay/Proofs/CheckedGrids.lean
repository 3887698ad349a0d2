import TermReplay.Proofs.CheckedPlanes
import TermReplay.Proofs.GridRows

/-!
Edits of grids as machine steps. Spans, rows and whole grids are written cell by cell here, with
every index looked at; on a grid that fits its size this comes to the edits of whole planes.
-/

namespace TermReplay.Grid

open Plane

def edit? (g : Grid) (f : ∀ {α : Type}, (Cell → α) → Array α → Option (Array α)) :
    Option Grid := do
  some
    { g with
      text := ← f (·.char) g.text
      bold := ← f (·.pen.bold) g.bold
      underline := ← f (·.pen.underline) g.underline
      lowIntensity := ← f (·.pen.lowIntensity) g.lowIntensity
      blink := ← f (·.pen.blink) g.blink
      foreground := ← f (·.pen.foreground) g.foreground
      background := ← f (·.pen.background) g.background }

def set? (g : Grid) (x y : Nat) (cell : Cell) : Option Grid :=
  g.edit? fun part plane => write? plane (g.index x y) (part cell)

def setLineSize? (g : Grid) (y : Nat) (size : LineSize) : Option Grid := do
  some { g with sizes := ← write? g.sizes y size }

def setColumns? (g : Grid) (y : Nat) (columns : List Nat) (cell : Cell) : Option Grid :=
  columns.foldlM (fun g x => g.set? x y cell) g

def blankSpan? (g : Grid) (y first last : Nat) : Option Grid :=
  g.setColumns? y (List.range' first (last + 1 - first)) .blank

def blankRow? (g : Grid) (y : Nat) : Option Grid := do
  let last ← minus? g.width 1
  (← g.blankSpan? y 0 last).setLineSize? y .single

def blankRows? (g : Grid) (first stop : Nat) : Option Grid :=
  (List.range' first (stop - first)).foldlM blankRow? g

def fillRow? (char : Char) (g : Grid) (y : Nat) : Option Grid := do
  (← g.setColumns? y (List.range g.width) { char }).setLineSize? y .single

def fill? (g : Grid) (char : Char) : Option Grid :=
  (List.range g.height).foldlM (fillRow? char) g

def rowImage? (g : Grid) (y : Nat) : Option RowImage := do
  some
    { text := String.ofList (← row? g.text g.width y)
      bold := String.ofList ((← row? g.bold g.width y).map RowImage.flag)
      underline := String.ofList ((← row? g.underline g.width y).map RowImage.flag)
      lowIntensity := String.ofList ((← row? g.lowIntensity g.width y).map RowImage.flag)
      blink := String.ofList ((← row? g.blink g.width y).map RowImage.flag)
      foreground := String.ofList ((← row? g.foreground g.width y).map RowImage.colour)
      background := String.ofList ((← row? g.background g.width y).map RowImage.colour)
      size := ← g.sizes[y]? }

/-- The row that is taken out, and the grid without it. -/
def cycleRows? (g : Grid) (remove insert : Nat) : Option (RowImage × Grid) := do
  let line ← g.rowImage? remove
  let cells ← g.edit? fun part plane => cycle? plane g.width remove insert (part .blank)
  some (line, { cells with sizes := ← cycle? g.sizes 1 remove insert .single })

def insertCell? (g : Grid) (x y : Nat) (cell : Cell) : Option Grid :=
  g.edit? fun part plane => shiftIn? plane (g.index x y) (g.index 0 (y + 1)) (part cell)

def deleteCell? (g : Grid) (x y : Nat) : Option Grid :=
  g.edit? fun part plane => shiftOut? plane (g.index x y) (g.index 0 (y + 1)) (part .blank)

variable {g : Grid} {width height : Nat}

theorem edit?_eq {f : ∀ {α : Type}, (Cell → α) → Array α → Array α}
    {f? : ∀ {α : Type}, (Cell → α) → Array α → Option (Array α)} (h : g.Fits width height)
    (hf : ∀ {α : Type} (part : Cell → α) (plane : Array α),
      plane.size = width * height → f? part plane = some (f part plane)) :
    g.edit? f? = some (g.edit f) := by
  simp only [edit?, hf _ _ h.text, hf _ _ h.bold, hf _ _ h.underline, hf _ _ h.lowIntensity,
    hf _ _ h.blink, hf _ _ h.foreground, hf _ _ h.background, Option.bind_eq_bind,
    Option.bind_some]
  rfl

theorem Fits.set?_eq (h : g.Fits width height) {x y : Nat} (cell : Cell) (hx : x < width)
    (hy : y < height) : g.set? x y cell = some (g.set x y cell) := by
  have hpos := position_lt hx hy
  refine edit?_eq h fun part plane hn => write?_eq _ ?_
  rw [index, h.width_eq, hn]
  exact hpos

theorem Fits.setLineSize?_eq (h : g.Fits width height) {y : Nat} (size : LineSize)
    (hy : y < height) : g.setLineSize? y size = some (g.setLineSize y size) := by
  simp only [setLineSize?, write?_eq size (h.sizes ▸ hy), Option.bind_eq_bind, Option.bind_some]
  rfl

theorem Fits.insertCell?_eq (h : g.Fits width height) {x y : Nat} (cell : Cell) (hx : x < width)
    (hy : y < height) : g.insertCell? x y cell = some (g.insertCell x y cell) := by
  have hstop := position_lt (show width - 1 < width by omega) hy
  refine edit?_eq h fun part plane hn => shiftIn?_eq _ ?_ ?_ <;>
    simp only [index, h.width_eq, Nat.succ_mul] <;> omega

theorem Fits.deleteCell?_eq (h : g.Fits width height) {x y : Nat} (hx : x < width)
    (hy : y < height) : g.deleteCell? x y = some (g.deleteCell x y) := by
  have hstop := position_lt (show width - 1 < width by omega) hy
  refine edit?_eq h fun part plane hn => shiftOut?_eq _ ?_ ?_ <;>
    simp only [index, h.width_eq, Nat.succ_mul] <;> omega

theorem Fits.rowImage?_eq (h : g.Fits width height) {y : Nat} (hy : y < height) :
    g.rowImage? y = some (g.rowImage y) := by
  have hsize : g.sizes[y]? = some (g.lineSize y) := by
    rw [lineSize, Array.getElem?_eq_getElem (h.sizes ▸ hy), Option.getD_some]
  simp only [rowImage?, h.width_eq, row?_eq h.text hy, row?_eq h.bold hy, row?_eq h.underline hy,
    row?_eq h.lowIntensity hy, row?_eq h.blink hy, row?_eq h.foreground hy,
    row?_eq h.background hy, hsize, Option.bind_eq_bind, Option.bind_some, rowImage, rowText]

theorem Fits.cycleRows?_eq (h : g.Fits width height) {remove insert : Nat} (hr : remove < height)
    (hi : insert < height) :
    g.cycleRows? remove insert = some (g.rowImage remove, g.cycleRows remove insert) := by
  have hcells : (g.edit? fun part plane => cycle? plane g.width remove insert (part .blank)) =
      some (g.edit fun part plane => cycle plane g.width remove insert (part .blank)) :=
    edit?_eq h fun part plane hn => cycle?_eq _ (h.width_eq ▸ hn) hr hi
  have hn : g.sizes.size = 1 * height := by rw [h.sizes, Nat.one_mul]
  have hsizes := cycle?_eq LineSize.single hn hr hi
  simp only [cycleRows?, h.rowImage?_eq hr, hcells, hsizes, Option.bind_eq_bind,
    Option.bind_some]
  rfl

/-- A run of steps none of which fails, all of which keep `P`. -/
theorem foldlM_eq_some {α β : Type} {f? : β → α → Option β} {f : β → α → β} {P : β → Prop}
    {xs : List α} (step : ∀ b, P b → ∀ x ∈ xs, f? b x = some (f b x) ∧ P (f b x)) {b : β}
    (hb : P b) : xs.foldlM f? b = some (xs.foldl f b) ∧ P (xs.foldl f b) := by
  induction xs generalizing b with
  | nil => exact ⟨rfl, hb⟩
  | cons x xs ih =>
      obtain ⟨hx, hkeep⟩ := step b hb x (List.mem_cons_self ..)
      rw [List.foldlM_cons, hx, List.foldl_cons]
      exact ih (fun b hb x hm => step b hb x (List.mem_cons_of_mem _ hm)) hkeep

theorem Fits.setColumns?_eq (h : g.Fits width height) {y : Nat} {columns : List Nat} (cell : Cell)
    (hc : ∀ x ∈ columns, x < width) (hy : y < height) :
    g.setColumns? y columns cell = some (g.setColumns y columns fun _ => cell) :=
  (foldlM_eq_some (P := (·.Fits width height))
    (fun _ hg x hx => ⟨hg.set?_eq cell (hc x hx) hy, hg.set x y cell⟩) h).1

theorem Fits.blankSpan?_eq (h : g.Fits width height) {y first last : Nat} (hl : last < width)
    (hy : y < height) : g.blankSpan? y first last = some (g.blankSpan y first last) := by
  have hc : ∀ x ∈ List.range' first (last + 1 - first), x < width := by
    intro x hx
    rw [List.mem_range'_1] at hx
    omega
  rw [blankSpan?, h.setColumns?_eq .blank hc hy]
  congr 1
  refine ext_cells (h.setColumns ..) (h.blankSpan hl hy) ?_ ?_
  · intro x' y' hx' hy'
    rw [cell_setColumns h _ hc hy hx', cell_blankSpan h hl hy hx']
    refine ite_congr (propext ?_) (fun _ => rfl) fun _ => rfl
    rw [List.mem_range'_1]
    omega
  · intro y' hy'
    rw [lineSize_setColumns, lineSize_blankSpan]

theorem setColumns_whole (h : g.Fits width height) {y : Nat} {columns : List Nat} (cell : Cell)
    (hc : ∀ x, x ∈ columns ↔ x < width) (hy : y < height) :
    (do (← g.setColumns? y columns cell).setLineSize? y .single) =
      some ((g.setColumns y columns fun _ => cell).setLineSize y .single) := by
  simp only [h.setColumns?_eq cell (fun x => (hc x).mp) hy, Option.bind_eq_bind, Option.bind_some]
  exact (h.setColumns ..).setLineSize?_eq .single hy

theorem Fits.blankRow?_eq (h : g.Fits width height) {y : Nat} (hw : 1 ≤ width) (hy : y < height) :
    g.blankRow? y = some (g.blankRow y) := by
  have hlast : width - 1 < width := by omega
  simp only [blankRow?, h.width_eq, minus?_eq hw, h.blankSpan?_eq hlast hy, Option.bind_eq_bind,
    Option.bind_some]
  have hspan : (g.blankSpan y 0 (width - 1)).Fits width height := h.blankSpan hlast hy
  rw [hspan.setLineSize?_eq .single hy]
  congr 1
  refine ext_cells (hspan.setLineSize ..) ((blankRow_paints width height).fits h hy) ?_ ?_
  · intro x row hx hrow
    rw [(blankRow_paints width height).cell_eq h hy hx, cell_setLineSize,
      cell_blankSpan h hlast hy hx]
    exact ite_congr (propext (by omega)) (fun _ => rfl) fun _ => rfl
  · intro row hrow
    rw [(blankRow_paints width height).size_eq h hy, lineSize_setLineSize hspan hy,
      lineSize_blankSpan]

theorem Fits.blankRows?_eq (h : g.Fits width height) {first stop : Nat} (hw : 1 ≤ width)
    (hs : stop ≤ height) : g.blankRows? first stop = some (g.blankRows first stop) := by
  have hrows : ∀ y ∈ List.range' first (stop - first), y < height := by
    intro y hy
    rw [List.mem_range'_1] at hy
    omega
  have hrun := (foldlM_eq_some (P := fun g : Grid => g.Fits width height) (fun g hg y hy =>
    ⟨hg.blankRow?_eq hw (hrows y hy), hg.blankRows (hrows y hy)⟩) h).1
  rw [blankRows?, hrun]
  obtain ⟨hfits, hcell, hsize⟩ := (blankRow_paints width height).run h hrows
  congr 1
  refine ext_cells hfits (h.blankRows hs) ?_ ?_
  · intro x y hx hy
    rw [hcell x y hx, cell_blankRows h hs hx]
    refine ite_congr (propext ?_) (fun _ => rfl) fun _ => rfl
    rw [List.mem_range'_1]
    omega
  · intro y hy
    rw [hsize y, lineSize_blankRows h hs]
    refine ite_congr (propext ?_) (fun _ => rfl) fun _ => rfl
    rw [List.mem_range'_1]
    omega

theorem Fits.fill?_eq (h : g.Fits width height) (char : Char) :
    g.fill? char = some (g.fill char) := by
  have hpaints := setColumns_paints { char } (fun x => List.mem_range (m := x) (n := width)) height
  have hrows : ∀ y ∈ List.range height, y < height := fun y => List.mem_range.mp
  let filled (g : Grid) (y : Nat) : Grid :=
    (g.setColumns y (List.range width) fun _ => { char }).setLineSize y .single
  have hstep : ∀ g : Grid, g.Fits width height → ∀ y ∈ List.range height,
      fillRow? char g y = some (filled g y) ∧ (filled g y).Fits width height := by
    intro g hg y hy
    refine ⟨?_, hpaints.fits hg (hrows y hy)⟩
    rw [fillRow?, hg.width_eq]
    exact setColumns_whole hg { char } (fun _ => List.mem_range) (hrows y hy)
  rw [fill?, h.height_eq, (foldlM_eq_some hstep h).1]
  obtain ⟨hfits, hcell, hsize⟩ := hpaints.run h hrows
  congr 1
  refine ext_cells hfits (h.fill char) ?_ ?_
  · intro x y hx hy
    rw [hcell x y hx, cell_fill h char hx hy, if_pos (List.mem_range.mpr hy)]
  · intro y hy
    rw [hsize y, lineSize_fill h char hy, if_pos (List.mem_range.mpr hy)]

end TermReplay.Grid

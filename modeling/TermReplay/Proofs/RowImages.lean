import TermReplay.Proofs.GridCells

/-!
What is reported of a row, told by its cells. On a grid whose planes fit, the image of a row is
that of its cells in order, and its size marker.
-/

namespace TermReplay

namespace RowImage

def ofCells (cells : List Cell) (size : LineSize) : RowImage :=
  { text := String.ofList (cells.map (·.char))
    bold := String.ofList (cells.map fun c => flag c.pen.bold)
    underline := String.ofList (cells.map fun c => flag c.pen.underline)
    lowIntensity := String.ofList (cells.map fun c => flag c.pen.lowIntensity)
    blink := String.ofList (cells.map fun c => flag c.pen.blink)
    foreground := String.ofList (cells.map fun c => colour c.pen.foreground)
    background := String.ofList (cells.map fun c => colour c.pen.background)
    size }

end RowImage

/-- Every column of a row has a position, so the default is never taken. -/
theorem Plane.row_eq {α : Type} {plane : Array α} {width height y : Nat}
    (hn : plane.size = width * height) (hy : y < height) (value : α) :
    Plane.row plane width y =
      (List.range width).map fun x => plane[x + y * width]?.getD value := by
  have hstop := Plane.row_stop_le hn hy
  apply List.ext_getElem?
  intro x
  rw [Plane.row, Nat.succ_mul, Array.getElem?_toList, Array.getElem?_extract, List.getElem?_map]
  by_cases hx : x < width
  · have hposition : x + y * width < plane.size := by omega
    rw [if_pos (by omega), List.getElem?_range hx, Nat.add_comm (y * width), Option.map_some,
      Array.getElem?_eq_getElem hposition, Option.getD_some]
  · rw [if_neg (by omega), List.getElem?_eq_none (by rw [List.length_range]; omega)]
    rfl

theorem Grid.Fits.rowImage_eq {g : Grid} {width height y : Nat} (h : g.Fits width height)
    (hy : y < height) : g.rowImage y = .ofCells (g.row y) (g.lineSize y) := by
  simp only [Grid.rowImage, Grid.rowText, RowImage.ofCells, Grid.row, h.width_eq,
    Plane.row_eq h.text hy ' ', Plane.row_eq h.bold hy Pen.plain.bold,
    Plane.row_eq h.underline hy Pen.plain.underline,
    Plane.row_eq h.lowIntensity hy Pen.plain.lowIntensity,
    Plane.row_eq h.blink hy Pen.plain.blink, Plane.row_eq h.foreground hy Pen.plain.foreground,
    Plane.row_eq h.background hy Pen.plain.background, List.map_map, Function.comp_def,
    Grid.cell, Grid.cellAt, Grid.index]

end TermReplay

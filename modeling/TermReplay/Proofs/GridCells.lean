import TermReplay.Proofs.Planes
import TermReplay.Screen.Grid

/-!
Grids whose planes fit their size, seen cell by cell. Every edit keeps the size of the grid and
of its planes, and is told by the cells and row sizes that it leaves at addresses in the grid.
-/

namespace TermReplay

open Plane

/-- A grid of the given size all of whose planes have a value for each cell. -/
structure Grid.Fits (g : Grid) (width height : Nat) : Prop where
  width_eq : g.width = width
  height_eq : g.height = height
  text : g.text.size = width * height
  bold : g.bold.size = width * height
  underline : g.underline.size = width * height
  lowIntensity : g.lowIntensity.size = width * height
  blink : g.blink.size = width * height
  foreground : g.foreground.size = width * height
  background : g.background.size = width * height
  sizes : g.sizes.size = height

theorem position_cases {x width : Nat} (hx : x < width) (y row : Nat) :
    (y < row ∧ x + y * width < row * width) ∨ y = row ∨
      (row < y ∧ row * width + width ≤ y * width) := by
  obtain h | h | h := Nat.lt_trichotomy y row
  · exact .inl ⟨h, (position_lt_iff hx).mpr h⟩
  · exact .inr (.inl h)
  · refine .inr (.inr ⟨h, ?_⟩)
    rw [← Nat.succ_mul]
    exact Nat.mul_le_mul_right width h

theorem position_lt {x y width height : Nat} (hx : x < width) (hy : y < height) :
    x + y * width < width * height := by
  rw [Nat.mul_comm width]
  exact (position_lt_iff hx).mpr hy

theorem position_inj {x y x' y' width : Nat} (hx : x < width) (hx' : x' < width) :
    x + y * width = x' + y' * width ↔ x = x' ∧ y = y' := by
  constructor
  · intro h
    obtain hc | rfl | hc := position_cases hx y y' <;> omega
  · rintro ⟨rfl, rfl⟩
    rfl

namespace Grid

variable {g : Grid} {width height : Nat}

theorem uniform_fits (width height : Nat) (cell : Cell) :
    (uniform width height cell).Fits width height := by
  constructor <;> simp [uniform]

theorem blank_fits (width height : Nat) : (blank width height).Fits width height :=
  uniform_fits width height .blank

theorem plane_eq {α : Type} {a b : Array α} {value : α} (ha : a.size = width * height)
    (hb : b.size = width * height)
    (h : ∀ x y, x < width → y < height →
      a[x + y * width]?.getD value = b[x + y * width]?.getD value) : a = b := by
  apply Array.ext (ha.trans hb.symm)
  intro i hi hi'
  have hw : 0 < width := Nat.pos_of_mul_pos_right (Nat.zero_lt_of_lt (ha ▸ hi))
  have hposition := h (i % width) (i / width) (Nat.mod_lt i hw)
    (Nat.div_lt_of_lt_mul (ha ▸ hi))
  rw [Nat.mul_comm, Nat.mod_add_div] at hposition
  rwa [Array.getElem?_eq_getElem hi, Array.getElem?_eq_getElem hi'] at hposition

theorem ext_cells {g' : Grid} (h : g.Fits width height) (h' : g'.Fits width height)
    (hcell : ∀ x y, x < width → y < height → g.cell x y = g'.cell x y)
    (hsize : ∀ y, y < height → g.lineSize y = g'.lineSize y) : g = g' := by
  have hat : ∀ x y, x < width → y < height →
      g.cellAt (x + y * width) = g'.cellAt (x + y * width) := by
    intro x y hx hy
    simpa only [cell, index, h.width_eq, h'.width_eq] using hcell x y hx hy
  have hsizes : g.sizes = g'.sizes := by
    apply Array.ext (h.sizes.trans h'.sizes.symm)
    intro y hy hy'
    have hrow := hsize y (h.sizes ▸ hy)
    simpa only [lineSize, Array.getElem?_eq_getElem hy, Array.getElem?_eq_getElem hy',
      Option.getD_some] using hrow
  have htext := plane_eq h.text h'.text fun x y hx hy => congrArg Cell.char (hat x y hx hy)
  have hpen := fun x y hx hy => congrArg Cell.pen (hat x y hx hy)
  have hbold := plane_eq h.bold h'.bold fun x y hx hy => congrArg Pen.bold (hpen x y hx hy)
  have hunderline := plane_eq h.underline h'.underline fun x y hx hy =>
    congrArg Pen.underline (hpen x y hx hy)
  have hlow := plane_eq h.lowIntensity h'.lowIntensity fun x y hx hy =>
    congrArg Pen.lowIntensity (hpen x y hx hy)
  have hblink := plane_eq h.blink h'.blink fun x y hx hy => congrArg Pen.blink (hpen x y hx hy)
  have hforeground := plane_eq h.foreground h'.foreground fun x y hx hy =>
    congrArg Pen.foreground (hpen x y hx hy)
  have hbackground := plane_eq h.background h'.background fun x y hx hy =>
    congrArg Pen.background (hpen x y hx hy)
  have hw := h.width_eq.trans h'.width_eq.symm
  have hh := h.height_eq.trans h'.height_eq.symm
  cases g
  cases g'
  simp only at *
  subst hw hh htext hbold hunderline hlow hblink hforeground hbackground hsizes
  rfl

section Edit

variable {f : ∀ {α : Type}, (Cell → α) → Array α → Array α}

theorem Fits.edit (h : g.Fits width height)
    (hf : ∀ {α : Type} (part : Cell → α) (plane : Array α),
      plane.size = width * height → (f part plane).size = plane.size) :
    (g.edit f).Fits width height where
  width_eq := h.width_eq
  height_eq := h.height_eq
  text := (hf _ _ h.text).trans h.text
  bold := (hf _ _ h.bold).trans h.bold
  underline := (hf _ _ h.underline).trans h.underline
  lowIntensity := (hf _ _ h.lowIntensity).trans h.lowIntensity
  blink := (hf _ _ h.blink).trans h.blink
  foreground := (hf _ _ h.foreground).trans h.foreground
  background := (hf _ _ h.background).trans h.background
  sizes := h.sizes

theorem cell_edit_eq_cell (h : g.Fits width height) {x y : Nat} {cell : Cell}
    (hf : ∀ {α : Type} (part : Cell → α) (plane : Array α),
      plane.size = width * height → (f part plane)[x + y * width]? = some (part cell)) :
    (g.edit f).cell x y = cell := by
  simp only [Grid.cell, index, edit, h.width_eq, cellAt, hf _ _ h.text, hf _ _ h.bold,
    hf _ _ h.underline, hf _ _ h.lowIntensity, hf _ _ h.blink, hf _ _ h.foreground,
    hf _ _ h.background, Option.getD_some]

theorem cell_edit_eq_cell_of (h : g.Fits width height) {x y x' y' : Nat}
    (hf : ∀ {α : Type} (part : Cell → α) (plane : Array α),
      plane.size = width * height → (f part plane)[x + y * width]? = plane[x' + y' * width]?) :
    (g.edit f).cell x y = g.cell x' y' := by
  simp only [Grid.cell, index, edit, h.width_eq, cellAt, hf _ _ h.text, hf _ _ h.bold,
    hf _ _ h.underline, hf _ _ h.lowIntensity, hf _ _ h.blink, hf _ _ h.foreground,
    hf _ _ h.background]

end Edit

theorem Fits.set (h : g.Fits width height) (x y : Nat) (cell : Cell) :
    (g.set x y cell).Fits width height := by
  simp only [Grid.set]
  exact h.edit fun _ _ _ => Array.size_setIfInBounds

theorem cell_set (h : g.Fits width height) {x y x' y' : Nat} (cell : Cell)
    (hx : x < width) (hy : y < height) (hx' : x' < width) :
    (g.set x y cell).cell x' y' = if x' = x ∧ y' = y then cell else g.cell x' y' := by
  have hpos := position_lt hx hy
  simp only [set, index, h.width_eq]
  split
  · next he =>
      obtain ⟨rfl, rfl⟩ := he
      refine cell_edit_eq_cell h fun part plane hn => ?_
      exact Array.getElem?_setIfInBounds_self_of_lt (by omega)
  · next he =>
      refine cell_edit_eq_cell_of h fun part plane _ => ?_
      exact Array.getElem?_setIfInBounds_ne (mt (position_inj hx' hx).mp he ∘ Eq.symm)

theorem lineSize_set (x y y' : Nat) (cell : Cell) :
    (g.set x y cell).lineSize y' = g.lineSize y' := rfl

theorem Fits.blankSpan (h : g.Fits width height) {y first last : Nat} (hl : last < width)
    (hy : y < height) : (g.blankSpan y first last).Fits width height := by
  have hpos := position_lt hl hy
  simp only [Grid.blankSpan, index, h.width_eq]
  split
  · exact h
  · exact h.edit fun _ _ hn => size_overwrite _ (by omega) (by omega)

theorem cell_blankSpan (h : g.Fits width height) {x y y' first last : Nat} (hl : last < width)
    (hy : y < height) (hx : x < width) :
    (g.blankSpan y first last).cell x y' =
      if y' = y ∧ first ≤ x ∧ x ≤ last then .blank else g.cell x y' := by
  have hpos := position_lt hl hy
  have hcases := position_cases hx y' y
  simp only [blankSpan, index, h.width_eq]
  split
  · rw [if_neg (by omega)]
  · split
    · next he =>
        obtain ⟨rfl, he⟩ := he
        refine cell_edit_eq_cell h fun part plane hn => ?_
        rw [getElem?_overwrite _ (by omega) (by omega), if_pos (by omega)]
    · next he =>
        refine cell_edit_eq_cell_of h fun part plane hn => ?_
        rw [getElem?_overwrite _ (by omega) (by omega), if_neg]
        obtain hc | rfl | hc := hcases <;> omega

theorem lineSize_blankSpan (y y' first last : Nat) :
    (g.blankSpan y first last).lineSize y' = g.lineSize y' := by
  simp only [blankSpan]
  split <;> rfl

theorem Fits.insertCell (h : g.Fits width height) {x y : Nat} (cell : Cell) (hx : x < width)
    (hy : y < height) : (g.insertCell x y cell).Fits width height := by
  have hstop := position_lt (show width - 1 < width by omega) hy
  simp only [Grid.insertCell, index, h.width_eq, Nat.succ_mul]
  exact h.edit fun _ _ hn => size_shiftIn _ (by omega) (by omega)

theorem cell_insertCell (h : g.Fits width height) {x y x' y' : Nat} (cell : Cell)
    (hx : x < width) (hy : y < height) (hx' : x' < width) :
    (g.insertCell x y cell).cell x' y' =
      if y' = y ∧ x ≤ x' then if x' = x then cell else g.cell (x' - 1) y
      else g.cell x' y' := by
  have hstop := position_lt (show width - 1 < width by omega) hy
  have hcases := position_cases hx' y' y
  simp only [insertCell, index, h.width_eq, Nat.succ_mul]
  split
  · next he =>
      obtain ⟨rfl, hle⟩ := he
      split
      · refine cell_edit_eq_cell h fun part plane hn => ?_
        rw [getElem?_shiftIn _ (by omega) (by omega), if_pos (by omega)]
      · refine cell_edit_eq_cell_of h fun part plane hn => ?_
        rw [getElem?_shiftIn _ (by omega) (by omega), if_neg (by omega), if_pos (by omega)]
        congr 1
        omega
  · next he =>
      refine cell_edit_eq_cell_of h fun part plane hn => ?_
      rw [getElem?_shiftIn _ (by omega) (by omega), if_neg, if_neg] <;>
        obtain hc | rfl | hc := hcases <;> omega

theorem lineSize_insertCell (x y y' : Nat) (cell : Cell) :
    (g.insertCell x y cell).lineSize y' = g.lineSize y' := rfl

theorem Fits.deleteCell (h : g.Fits width height) {x y : Nat} (hx : x < width)
    (hy : y < height) : (g.deleteCell x y).Fits width height := by
  have hstop := position_lt (show width - 1 < width by omega) hy
  simp only [Grid.deleteCell, index, h.width_eq, Nat.succ_mul]
  exact h.edit fun _ _ hn => size_shiftOut _ (by omega) (by omega)

theorem cell_deleteCell (h : g.Fits width height) {x y x' y' : Nat} (hx : x < width)
    (hy : y < height) (hx' : x' < width) :
    (g.deleteCell x y).cell x' y' =
      if y' = y ∧ x ≤ x' then if x' + 1 = width then .blank else g.cell (x' + 1) y
      else g.cell x' y' := by
  have hstop := position_lt (show width - 1 < width by omega) hy
  have hcases := position_cases hx' y' y
  simp only [deleteCell, index, h.width_eq, Nat.succ_mul]
  split
  · next he =>
      obtain ⟨rfl, hle⟩ := he
      split
      · refine cell_edit_eq_cell h fun part plane hn => ?_
        rw [getElem?_shiftOut _ (by omega) (by omega), if_pos (by omega)]
      · refine cell_edit_eq_cell_of h fun part plane hn => ?_
        rw [getElem?_shiftOut _ (by omega) (by omega), if_neg (by omega), if_pos (by omega)]
        congr 1
        omega
  · next he =>
      refine cell_edit_eq_cell_of h fun part plane hn => ?_
      rw [getElem?_shiftOut _ (by omega) (by omega), if_neg, if_neg] <;>
        obtain hc | rfl | hc := hcases <;> omega

theorem lineSize_deleteCell (x y y' : Nat) :
    (g.deleteCell x y).lineSize y' = g.lineSize y' := rfl

theorem Fits.setLineSize (h : g.Fits width height) (y : Nat) (size : LineSize) :
    (g.setLineSize y size).Fits width height :=
  { h with sizes := by rw [Grid.setLineSize, Array.size_setIfInBounds, h.sizes] }

theorem cell_setLineSize (x y y' : Nat) (size : LineSize) :
    (g.setLineSize y size).cell x y' = g.cell x y' := rfl

theorem lineSize_setLineSize (h : g.Fits width height) {y : Nat} (hy : y < height) (y' : Nat)
    (size : LineSize) :
    (g.setLineSize y size).lineSize y' = if y' = y then size else g.lineSize y' := by
  simp only [lineSize, setLineSize]
  split
  · next he =>
      subst he
      rw [Array.getElem?_setIfInBounds_self_of_lt (by rw [h.sizes]; exact hy)]
      rfl
  · next he => rw [Array.getElem?_setIfInBounds_ne (Ne.symm he)]

theorem Fits.blankRows (h : g.Fits width height) {first stop : Nat} (hs : stop ≤ height) :
    (g.blankRows first stop).Fits width height := by
  have hsizes := h.sizes
  have hstop := Nat.mul_le_mul_right width hs
  rw [Nat.mul_comm height] at hstop
  simp only [Grid.blankRows, index, h.width_eq]
  split
  · exact h
  · next hlt =>
      have hstart := Nat.mul_le_mul_right width (Nat.le_of_not_le hlt)
      have hcells : (g.edit fun part plane => overwrite plane (0 + first * width)
          (0 + stop * width) (part .blank)).Fits width height :=
        h.edit fun _ _ hn => size_overwrite _ (by omega) (by omega)
      exact { hcells with sizes := (size_overwrite _ (by omega) (by omega)).trans hsizes }

theorem cell_blankRows (h : g.Fits width height) {x y first stop : Nat} (hs : stop ≤ height)
    (hx : x < width) :
    (g.blankRows first stop).cell x y = if first ≤ y ∧ y < stop then .blank else g.cell x y := by
  have hstop := Nat.mul_le_mul_right width hs
  rw [Nat.mul_comm height] at hstop
  have hfirst : x + y * width < first * width ↔ y < first := position_lt_iff hx
  have hlast : x + y * width < stop * width ↔ y < stop := position_lt_iff hx
  simp only [blankRows, index, h.width_eq]
  split
  · rw [if_neg (by omega)]
  · next hlt =>
      have hstart := Nat.mul_le_mul_right width (Nat.le_of_not_le hlt)
      show (g.edit fun part plane => overwrite plane (0 + first * width) (0 + stop * width)
        (part .blank)).cell x y = _
      split
      · refine cell_edit_eq_cell h fun part plane hn => ?_
        rw [getElem?_overwrite _ (by omega) (by omega), if_pos (by omega)]
      · refine cell_edit_eq_cell_of h fun part plane hn => ?_
        rw [getElem?_overwrite _ (by omega) (by omega), if_neg (by omega)]

theorem lineSize_blankRows (h : g.Fits width height) {first stop : Nat} (hs : stop ≤ height)
    (y : Nat) :
    (g.blankRows first stop).lineSize y =
      if first ≤ y ∧ y < stop then .single else g.lineSize y := by
  have hsizes := h.sizes
  simp only [blankRows]
  split
  · rw [if_neg (by omega)]
  · simp only [lineSize]
    rw [getElem?_overwrite _ (by omega) (by omega)]
    split <;> rfl

theorem Fits.fill (h : g.Fits width height) (char : Char) : (g.fill char).Fits width height := by
  have hcells : (g.edit fun part plane =>
      Array.replicate plane.size (part { char })).Fits width height :=
    h.edit fun _ _ _ => Array.size_replicate
  exact { hcells with sizes := Array.size_replicate.trans h.sizes }

theorem cell_fill (h : g.Fits width height) {x y : Nat} (char : Char) (hx : x < width)
    (hy : y < height) : (g.fill char).cell x y = { char } := by
  have hpos := position_lt hx hy
  show (g.edit fun part plane => Array.replicate plane.size (part { char })).cell x y = _
  refine cell_edit_eq_cell h fun part plane hn => ?_
  rw [Array.getElem?_replicate, if_pos (by omega)]

theorem lineSize_fill (h : g.Fits width height) {y : Nat} (char : Char) (hy : y < height) :
    (g.fill char).lineSize y = .single := by
  have hs := h.sizes
  simp only [lineSize, fill]
  rw [Array.getElem?_replicate, if_pos (by omega)]
  rfl

theorem Fits.cycleRows (h : g.Fits width height) {remove insert : Nat} (hr : remove < height)
    (hi : insert < height) : (g.cycleRows remove insert).Fits width height := by
  simp only [Grid.cycleRows, h.width_eq]
  have hcells : (g.edit fun part plane =>
      cycle plane width remove insert (part .blank)).Fits width height :=
    h.edit fun _ _ hn => size_cycle _ hn hr hi
  exact { hcells with
    sizes := (size_cycle _ (by rw [h.sizes, Nat.one_mul]) hr hi).trans h.sizes }

theorem cell_cycleRows (h : g.Fits width height) {remove insert : Nat} (hr : remove < height)
    (hi : insert < height) {x : Nat} (hx : x < width) (y : Nat) :
    (g.cycleRows remove insert).cell x y =
      match cycleSource remove insert y with
      | none => .blank
      | some row => g.cell x row := by
  simp only [cycleRows, h.width_eq]
  show (g.edit fun part plane => cycle plane width remove insert (part .blank)).cell x y = _
  cases hsource : cycleSource remove insert y with
  | none =>
      refine cell_edit_eq_cell h fun part plane hn => ?_
      rw [getElem?_cycle (part .blank) hn hr hi hx y, hsource]
  | some row =>
      refine cell_edit_eq_cell_of h fun part plane hn => ?_
      rw [getElem?_cycle (part .blank) hn hr hi hx y, hsource]

theorem lineSize_cycleRows (h : g.Fits width height) {remove insert : Nat} (hr : remove < height)
    (hi : insert < height) (y : Nat) :
    (g.cycleRows remove insert).lineSize y =
      match cycleSource remove insert y with
      | none => .single
      | some row => g.lineSize row := by
  have hn : g.sizes.size = 1 * height := by rw [h.sizes, Nat.one_mul]
  have hc := getElem?_cycle LineSize.single hn hr hi Nat.one_pos y
  simp only [Nat.zero_add, Nat.mul_one] at hc
  simp only [lineSize, cycleRows, hc]
  cases cycleSource remove insert y <;> rfl

end Grid

end TermReplay

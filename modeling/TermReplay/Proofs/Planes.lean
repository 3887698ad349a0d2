import TermReplay.Screen.Plane

/-!
Edits of planes, described position by position. A position that is read through `[i]?` also
tells where the plane ends, so these facts fix the length of what comes out as well.
-/

namespace TermReplay.Plane

variable {α : Type}

theorem size_splice {plane : Array α} {start stop : Nat} (middle : Array α)
    (hs : start ≤ stop) (he : stop ≤ plane.size) :
    (splice plane start stop middle).size = plane.size - (stop - start) + middle.size := by
  simp only [splice, Array.size_append, Array.size_extract]
  omega

theorem getElem?_splice {plane : Array α} {start stop : Nat} (middle : Array α)
    (hs : start ≤ stop) (he : stop ≤ plane.size) (i : Nat) :
    (splice plane start stop middle)[i]? =
      if i < start then plane[i]?
      else if i < start + middle.size then middle[i - start]?
      else plane[stop + (i - (start + middle.size))]? := by
  have hleft : (plane.extract 0 start).size = start := by
    rw [Array.size_extract]
    omega
  have hboth : (plane.extract 0 start ++ middle).size = start + middle.size := by
    rw [Array.size_append, hleft]
  rw [splice]
  by_cases hi : i < start
  · rw [if_pos hi, Array.getElem?_append_left (by omega),
      Array.getElem?_append_left (by omega), Array.getElem?_extract, if_pos (by omega)]
    congr 1
    omega
  · rw [if_neg hi]
    by_cases hj : i < start + middle.size
    · rw [if_pos hj, Array.getElem?_append_left (by omega),
        Array.getElem?_append_right (by omega), hleft]
    · rw [if_neg hj, Array.getElem?_append_right (by omega), hboth, Array.getElem?_extract]
      split
      · rfl
      · rw [Array.getElem?_eq_none (by omega)]

theorem size_overwrite {plane : Array α} {start stop : Nat} (value : α) (hs : start ≤ stop)
    (he : stop ≤ plane.size) : (overwrite plane start stop value).size = plane.size := by
  rw [overwrite, size_splice _ hs he, Array.size_replicate]
  omega

theorem getElem?_overwrite {plane : Array α} {start stop : Nat} (value : α) (hs : start ≤ stop)
    (he : stop ≤ plane.size) (i : Nat) :
    (overwrite plane start stop value)[i]? =
      if start ≤ i ∧ i < stop then some value else plane[i]? := by
  rw [overwrite, getElem?_splice _ hs he, Array.size_replicate]
  by_cases hi : i < start
  · rw [if_pos hi, if_neg (by omega)]
  · rw [if_neg hi]
    by_cases hj : i < stop
    · rw [if_pos (by omega), if_pos (by omega), Array.getElem?_replicate, if_pos (by omega)]
    · rw [if_neg (by omega), if_neg (by omega)]
      congr 1
      omega

theorem size_shiftIn {plane : Array α} {start stop : Nat} (value : α) (hs : start < stop)
    (he : stop ≤ plane.size) : (shiftIn plane start stop value).size = plane.size := by
  rw [shiftIn, size_splice _ (by omega) he]
  simp only [Array.size_append, Array.size_extract, List.size_toArray, List.length_singleton]
  omega

theorem getElem?_shiftIn {plane : Array α} {start stop : Nat} (value : α) (hs : start < stop)
    (he : stop ≤ plane.size) (i : Nat) :
    (shiftIn plane start stop value)[i]? =
      if i = start then some value
      else if start < i ∧ i < stop then plane[i - 1]? else plane[i]? := by
  have hmiddle : (#[value] ++ plane.extract start (stop - 1)).size = stop - start := by
    simp only [Array.size_append, Array.size_extract, List.size_toArray, List.length_singleton]
    omega
  rw [shiftIn, getElem?_splice _ (by omega) he, hmiddle]
  by_cases hi : i < start
  · rw [if_pos hi, if_neg (by omega), if_neg (by omega)]
  · rw [if_neg hi]
    by_cases hj : i < stop
    · rw [if_pos (by omega)]
      by_cases hk : i = start
      · rw [if_pos hk, Array.getElem?_append_left (by simp; omega), hk, Nat.sub_self]
        rfl
      · rw [if_neg hk, if_pos (by omega), Array.getElem?_append_right (by simp; omega)]
        simp only [List.size_toArray, List.length_singleton, Array.getElem?_extract]
        rw [if_pos (by omega)]
        congr 1
        omega
    · rw [if_neg (by omega), if_neg (by omega), if_neg (by omega)]
      congr 1
      omega

theorem size_shiftOut {plane : Array α} {start stop : Nat} (value : α) (hs : start < stop)
    (he : stop ≤ plane.size) : (shiftOut plane start stop value).size = plane.size := by
  rw [shiftOut, size_splice _ (by omega) he]
  simp only [Array.size_append, Array.size_extract, List.size_toArray, List.length_singleton]
  omega

theorem getElem?_shiftOut {plane : Array α} {start stop : Nat} (value : α) (hs : start < stop)
    (he : stop ≤ plane.size) (i : Nat) :
    (shiftOut plane start stop value)[i]? =
      if i + 1 = stop then some value
      else if start ≤ i ∧ i < stop then plane[i + 1]? else plane[i]? := by
  have hleft : (plane.extract (start + 1) stop).size = stop - start - 1 := by
    rw [Array.size_extract]
    omega
  have hmiddle : (plane.extract (start + 1) stop ++ #[value]).size = stop - start := by
    simp only [Array.size_append, hleft, List.size_toArray, List.length_singleton]
    omega
  rw [shiftOut, getElem?_splice _ (by omega) he, hmiddle]
  by_cases hi : i < start
  · rw [if_pos hi, if_neg (by omega), if_neg (by omega)]
  · rw [if_neg hi]
    by_cases hj : i < stop
    · rw [if_pos (by omega)]
      by_cases hk : i + 1 = stop
      · rw [if_pos hk, Array.getElem?_append_right (by omega), hleft,
          show i - start - (stop - start - 1) = 0 by omega]
        rfl
      · rw [if_neg hk, if_pos (by omega), Array.getElem?_append_left (by omega),
          Array.getElem?_extract, if_pos (by omega)]
        congr 1
        omega
    · rw [if_neg (by omega), if_neg (by omega), if_neg (by omega)]
      congr 1
      omega

/-- Position `x + y * width` with `x < width` is column `x` of row `y`. -/
theorem position_lt_iff {x y width row : Nat} (hx : x < width) :
    x + y * width < row * width ↔ y < row := by
  constructor
  · intro h
    apply Nat.lt_of_not_le
    intro hy
    have := Nat.mul_le_mul_right width hy
    omega
  · intro h
    have := Nat.mul_le_mul_right width (Nat.succ_le_of_lt h)
    rw [Nat.succ_mul] at this
    omega

theorem row_stop_le {plane : Array α} {width height row : Nat}
    (hn : plane.size = width * height) (hr : row < height) :
    row * width + width ≤ plane.size := by
  rw [hn, Nat.mul_comm width, ← Nat.succ_mul]
  exact Nat.mul_le_mul_right width hr

/-- The row that row `y` was before row `remove` was taken out and a new row put in front of
row `insert`; the new row was none. -/
def cycleSource (remove insert y : Nat) : Option Nat :=
  if y = insert then none
  else
    let kept := if y < insert then y else y - 1
    some (if kept < remove then kept else kept + 1)

theorem cycleSource_self (remove insert : Nat) : cycleSource remove insert insert = none :=
  if_pos rfl

theorem cycleSource_of_lt {insert y : Nat} (h : y < insert) (remove : Nat) :
    cycleSource remove insert y = some (if y < remove then y else y + 1) := by
  rw [cycleSource, if_neg (Nat.ne_of_lt h), if_pos h]

theorem cycleSource_of_gt {insert y : Nat} (h : insert < y) (remove : Nat) :
    cycleSource remove insert y = some (if y - 1 < remove then y - 1 else y) := by
  have hy : y - 1 + 1 = y := Nat.sub_add_cancel (Nat.one_le_of_lt h)
  simp only [cycleSource, if_neg (Nat.ne_of_gt h), if_neg (Nat.lt_asymm h), hy]

theorem cycleSource_lt {height remove insert y row : Nat}
    (h : cycleSource remove insert y = some row) (hr : remove < height) (hi : insert < height)
    (hy : y < height) : row < height := by
  obtain hlt | rfl | hgt := Nat.lt_trichotomy y insert
  · rw [cycleSource_of_lt hlt, Option.some.injEq] at h
    split at h <;> omega
  · rw [cycleSource_self] at h
    cases h
  · rw [cycleSource_of_gt hgt, Option.some.injEq] at h
    split at h <;> omega

theorem size_cycle {plane : Array α} {width height remove insert : Nat} (value : α)
    (hn : plane.size = width * height) (hr : remove < height) (hi : insert < height) :
    (cycle plane width remove insert value).size = plane.size := by
  have hremove := row_stop_le hn hr
  have hinsert := row_stop_le hn hi
  have hkept := size_splice (#[] : Array α) (Nat.le_add_right (remove * width) width) hremove
  rw [Array.size_empty] at hkept
  rw [cycle, Nat.succ_mul, size_splice _ (Nat.le_refl _) (by omega), Array.size_replicate]
  omega

theorem getElem?_cycle {plane : Array α} {width height remove insert : Nat} (value : α)
    (hn : plane.size = width * height) (hr : remove < height) (hi : insert < height)
    {x : Nat} (hx : x < width) (y : Nat) :
    (cycle plane width remove insert value)[x + y * width]? =
      match cycleSource remove insert y with
      | none => some value
      | some row => plane[x + row * width]? := by
  have hremove := row_stop_le hn hr
  have hinsert := row_stop_le hn hi
  have hsize := size_splice (#[] : Array α) (Nat.le_add_right (remove * width) width) hremove
  rw [Array.size_empty] at hsize
  have hkept : ∀ row, (splice plane (remove * width) (remove * width + width) #[])[
      x + row * width]? = plane[x + (if row < remove then row else row + 1) * width]? := by
    intro row
    rw [getElem?_splice _ (Nat.le_add_right _ _) hremove]
    by_cases h : row < remove
    · rw [if_pos ((position_lt_iff hx).mpr h), if_pos h]
    · have hle := Nat.mul_le_mul_right width (Nat.le_of_not_lt h)
      rw [if_neg (mt (position_lt_iff hx).mp h), if_neg h, Array.size_empty,
        if_neg (by omega), Nat.succ_mul]
      congr 1
      omega
  rw [cycle, Nat.succ_mul, getElem?_splice _ (Nat.le_refl _) (by omega), Array.size_replicate]
  by_cases hlt : y < insert
  · rw [if_pos ((position_lt_iff hx).mpr hlt), hkept, cycleSource_of_lt hlt]
  · have hle := Nat.mul_le_mul_right width (Nat.le_of_not_lt hlt)
    rw [if_neg (mt (position_lt_iff hx).mp hlt)]
    by_cases heq : y = insert
    · subst heq
      rw [if_pos (by omega), Array.getElem?_replicate, if_pos (by omega), cycleSource_self]
    · have hnext := Nat.mul_le_mul_right width (show insert + 1 ≤ y by omega)
      rw [Nat.succ_mul] at hnext
      have hy : y - 1 + 1 = y := by omega
      have hrow : y * width = (y - 1) * width + width := by
        rw [← Nat.succ_mul, Nat.succ_eq_add_one, hy]
      rw [if_neg (by omega),
        show insert * width + (x + y * width - (insert * width + width)) =
          x + (y - 1) * width by omega, hkept, cycleSource_of_gt (by omega), hy]

end TermReplay.Plane

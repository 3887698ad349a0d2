import TermReplay.Proofs.Planes

/-!
Edits of planes as machine steps, each of which fails where an index, a range or a subtraction
would be out of range. Inside the plane they come to the edits that cannot fail.
-/

namespace TermReplay

def minus? (a b : Nat) : Option Nat := if b ≤ a then some (a - b) else none

theorem minus?_eq {a b : Nat} (h : b ≤ a) : minus? a b = some (a - b) := if_pos h

namespace Plane

variable {α : Type}

def write? (plane : Array α) (i : Nat) (value : α) : Option (Array α) :=
  if i < plane.size then some (plane.setIfInBounds i value) else none

def slice? (plane : Array α) (start stop : Nat) : Option (Array α) :=
  if start ≤ stop ∧ stop ≤ plane.size then some (plane.extract start stop) else none

def splice? (plane : Array α) (start stop : Nat) (middle : Array α) : Option (Array α) :=
  if start ≤ stop ∧ stop ≤ plane.size then some (splice plane start stop middle) else none

/-- Turns a range by one to the right. A range that is empty cannot be turned. -/
def turnRight? (plane : Array α) (start stop : Nat) : Option (Array α) := do
  let last ← minus? stop 1
  splice? plane start stop ((← slice? plane last stop) ++ (← slice? plane start last))

def turnLeft? (plane : Array α) (start stop : Nat) : Option (Array α) := do
  let head ← slice? plane start (start + 1)
  splice? plane start stop ((← slice? plane (start + 1) stop) ++ head)

def shiftIn? (plane : Array α) (start stop : Nat) (value : α) : Option (Array α) := do
  write? (← turnRight? plane start stop) start value

def shiftOut? (plane : Array α) (start stop : Nat) (value : α) : Option (Array α) := do
  write? (← turnLeft? plane start stop) (← minus? stop 1) value

def cycle? (plane : Array α) (width remove insert : Nat) (value : α) : Option (Array α) := do
  let kept ← splice? plane (remove * width) ((remove + 1) * width) #[]
  splice? kept (insert * width) (insert * width) (Array.replicate width value)

def row? (plane : Array α) (width y : Nat) : Option (List α) := do
  some (← slice? plane (y * width) ((y + 1) * width)).toList

variable {plane : Array α} {start stop : Nat}

theorem write?_eq {i : Nat} (value : α) (h : i < plane.size) :
    write? plane i value = some (plane.setIfInBounds i value) := if_pos h

theorem slice?_eq (hs : start ≤ stop) (he : stop ≤ plane.size) :
    slice? plane start stop = some (plane.extract start stop) := if_pos ⟨hs, he⟩

theorem splice?_eq (middle : Array α) (hs : start ≤ stop) (he : stop ≤ plane.size) :
    splice? plane start stop middle = some (splice plane start stop middle) := if_pos ⟨hs, he⟩

theorem shiftIn?_eq (value : α) (hs : start < stop) (he : stop ≤ plane.size) :
    shiftIn? plane start stop value = some (shiftIn plane start stop value) := by
  have hmiddle : (plane.extract (stop - 1) stop ++ plane.extract start (stop - 1)).size =
      stop - start := by
    simp only [Array.size_append, Array.size_extract]
    omega
  have hsize := size_splice (plane.extract (stop - 1) stop ++ plane.extract start (stop - 1))
    (Nat.le_of_lt hs) he
  simp only [shiftIn?, turnRight?, minus?_eq (show 1 ≤ stop by omega),
    slice?_eq (Nat.sub_le stop 1) he, slice?_eq (show start ≤ stop - 1 by omega)
    (show stop - 1 ≤ plane.size by omega), splice?_eq _ (Nat.le_of_lt hs) he,
    Option.bind_eq_bind, Option.bind_some]
  rw [write?_eq value (by omega)]
  congr 1
  apply Array.ext_getElem?
  intro i
  rw [getElem?_shiftIn value hs he, Array.getElem?_setIfInBounds,
    getElem?_splice _ (Nat.le_of_lt hs) he, hmiddle]
  by_cases hi : start = i
  · subst hi
    rw [if_pos rfl, if_pos (by omega), if_pos rfl]
  · rw [if_neg hi, if_neg (Ne.symm hi)]
    by_cases hlt : i < start
    · rw [if_pos hlt, if_neg (by omega)]
    · rw [if_neg hlt]
      by_cases hin : i < stop
      · have hone : (plane.extract (stop - 1) stop).size = 1 := by
          rw [Array.size_extract]
          omega
        rw [if_pos (by omega), if_pos (by omega), Array.getElem?_append_right (by omega), hone,
          Array.getElem?_extract, if_pos (by omega)]
        congr 1
        omega
      · rw [if_neg (by omega), if_neg (by omega)]
        congr 1
        omega

theorem shiftOut?_eq (value : α) (hs : start < stop) (he : stop ≤ plane.size) :
    shiftOut? plane start stop value = some (shiftOut plane start stop value) := by
  have hleft : (plane.extract (start + 1) stop).size = stop - start - 1 := by
    rw [Array.size_extract]
    omega
  have hmiddle : (plane.extract (start + 1) stop ++ plane.extract start (start + 1)).size =
      stop - start := by
    simp only [Array.size_append, Array.size_extract]
    omega
  have hsize := size_splice (plane.extract (start + 1) stop ++ plane.extract start (start + 1))
    (Nat.le_of_lt hs) he
  simp only [shiftOut?, turnLeft?, minus?_eq (show 1 ≤ stop by omega),
    slice?_eq (show start + 1 ≤ stop from hs) he, slice?_eq (Nat.le_add_right start 1)
    (show start + 1 ≤ plane.size by omega),
    splice?_eq _ (Nat.le_of_lt hs) he, Option.bind_eq_bind, Option.bind_some]
  rw [write?_eq value (by omega)]
  congr 1
  apply Array.ext_getElem?
  intro i
  rw [getElem?_shiftOut value hs he, Array.getElem?_setIfInBounds,
    getElem?_splice _ (Nat.le_of_lt hs) he, hmiddle]
  by_cases hi : i + 1 = stop
  · rw [if_pos (by omega), if_pos (by omega), if_pos hi]
  · rw [if_neg (by omega), if_neg hi]
    by_cases hlt : i < start
    · rw [if_pos hlt, if_neg (by omega)]
    · rw [if_neg hlt]
      by_cases hin : i < stop
      · rw [if_pos (by omega), if_pos (by omega), Array.getElem?_append_left (by omega),
          Array.getElem?_extract, if_pos (by omega)]
        congr 1
        omega
      · rw [if_neg (by omega), if_neg (by omega)]
        congr 1
        omega

theorem cycle?_eq {width height remove insert : Nat} (value : α)
    (hn : plane.size = width * height) (hr : remove < height) (hi : insert < height) :
    cycle? plane width remove insert value = some (cycle plane width remove insert value) := by
  have hremove := row_stop_le hn hr
  have hinsert := row_stop_le hn hi
  have hkept := size_splice (#[] : Array α) (Nat.le_add_right (remove * width) width) hremove
  rw [Array.size_empty] at hkept
  simp only [cycle?, cycle, Nat.succ_mul, splice?_eq _ (Nat.le_add_right _ _) hremove,
    Option.bind_eq_bind, Option.bind_some]
  exact splice?_eq _ (Nat.le_refl _) (by omega)

theorem row?_eq {width height y : Nat} (hn : plane.size = width * height) (hy : y < height) :
    row? plane width y = some (row plane width y) := by
  have hrow := row_stop_le hn hy
  simp only [row?, row, Nat.succ_mul, slice?_eq (Nat.le_add_right _ _) hrow,
    Option.bind_eq_bind, Option.bind_some]

end Plane

end TermReplay

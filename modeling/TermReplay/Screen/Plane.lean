/-!
A plane holds one attribute of every cell of a grid, row after row. Structural edits cut a plane
and join the parts again, so the same edit applies to planes of any attribute.
-/

namespace TermReplay.Plane

variable {α : Type}

/-- Puts `middle` in the place of the elements from `start` up to but not including `stop`. -/
def splice (plane : Array α) (start stop : Nat) (middle : Array α) : Array α :=
  plane.extract 0 start ++ middle ++ plane.extract stop plane.size

def overwrite (plane : Array α) (start stop : Nat) (value : α) : Array α :=
  splice plane start stop (Array.replicate (stop - start) value)

/-- Puts `value` first in a range; the last element of the range falls off. -/
def shiftIn (plane : Array α) (start stop : Nat) (value : α) : Array α :=
  splice plane start stop (#[value] ++ plane.extract start (stop - 1))

/-- Drops the first element of a range and puts `value` last. -/
def shiftOut (plane : Array α) (start stop : Nat) (value : α) : Array α :=
  splice plane start stop (plane.extract (start + 1) stop ++ #[value])

/-- Cuts out row `remove`, then puts a row of `value` in front of what is now row `insert`. -/
def cycle (plane : Array α) (width remove insert : Nat) (value : α) : Array α :=
  let kept := splice plane (remove * width) ((remove + 1) * width) #[]
  splice kept (insert * width) (insert * width) (Array.replicate width value)

def row (plane : Array α) (width y : Nat) : List α :=
  (plane.extract (y * width) ((y + 1) * width)).toList

end TermReplay.Plane

import TermReplay.Proofs.CheckedPlanes
import TermReplay.Proofs.Consistency

/-!
Creating a terminal as machine steps. The cells of each grid are counted in a machine word before
there is any; where the word cannot hold the count nothing is created, and otherwise it is the
terminal that is created without such a limit.
-/

namespace TermReplay

open Plane
open Stored (wordLimit le_wordLimit_iff wordLimit_lt_iff)

variable {width height depth : Nat}

def Grid.uniform? (width height : Nat) (cell : Cell) : Option Grid := do
  let n ← Number.product? width height
  some
    { width, height
      text := Array.replicate n cell.char
      bold := Array.replicate n cell.pen.bold
      underline := Array.replicate n cell.pen.underline
      lowIntensity := Array.replicate n cell.pen.lowIntensity
      blink := Array.replicate n cell.pen.blink
      foreground := Array.replicate n cell.pen.foreground
      background := Array.replicate n cell.pen.background
      sizes := Array.replicate height .single }

theorem Grid.uniform?_eq (hword : width * height ≤ wordLimit) (cell : Cell) :
    uniform? width height cell = some (uniform width height cell) := by
  rw [uniform?, Number.product?_eq_some_iff.mpr ⟨rfl, le_wordLimit_iff.mp hword⟩]
  rfl

theorem Grid.uniform?_eq_none (hword : wordLimit < width * height) (cell : Cell) :
    uniform? width height cell = none := by
  rw [uniform?, Number.product?_eq_none_iff.mpr (wordLimit_lt_iff.mp hword)]
  rfl

namespace Terminal

def initial? (width height depth : Nat) : Option Terminal := do
  let primary ← Grid.uniform? width height .blank
  let alternate ← Grid.uniform? width height .blank
  let bottom ← minus? height 1
  some { initial width height depth with primary, alternate, margins := ⟨0, bottom⟩ }

/-- The size is looked at first: that one is too small is an answer. -/
def create? (width height depth : Nat) : Option (Except TooSmall Terminal) :=
  if 1 ≤ width ∧ 2 ≤ height then (initial? width height depth).map .ok
  else some (.error ⟨width, height⟩)

theorem initial?_eq (hh : 1 ≤ height) (hword : width * height ≤ wordLimit) :
    initial? width height depth = some (initial width height depth) := by
  simp only [initial?, Grid.uniform?_eq hword, minus?_eq hh, Option.bind_eq_bind, Option.bind_some]
  rfl

theorem create?_eq (hword : width * height ≤ wordLimit) :
    create? width height depth = some (create width height depth) := by
  rw [create?, create]
  split
  · next hsize => rw [initial?_eq (Nat.le_of_succ_le hsize.2) hword, Option.map_some]
  · rfl

theorem create?_eq_none (hsize : 1 ≤ width ∧ 2 ≤ height) (hword : wordLimit < width * height) :
    create? width height depth = none := by
  rw [create?, if_pos hsize, initial?, Grid.uniform?_eq_none hword]
  rfl

end Terminal

end TermReplay

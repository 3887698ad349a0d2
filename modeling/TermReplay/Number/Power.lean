/-!
Powers of two and of ten: sizes of machine words, and the scales of binary and decimal numbers. A
product that a machine word cannot hold is none.
-/

namespace TermReplay.Number

def twoTo (n : Nat) : Nat := Nat.pow 2 n

def tenTo (n : Nat) : Nat := Nat.pow 10 n

theorem twoTo_pos (n : Nat) : 0 < twoTo n := Nat.pow_pos (by decide)

def product? (a b : Nat) : Option Nat :=
  let n := a * b
  if n < twoTo 64 then some n else none

theorem product?_eq_some_iff {a b n : Nat} :
    product? a b = some n ↔ n = a * b ∧ a * b < twoTo 64 := by
  simp only [product?]
  split
  · next h => rw [Option.some.injEq, eq_comm, and_iff_left h]
  · next h => exact iff_of_false nofun fun hn => h hn.2

theorem product?_eq_none_iff {a b : Nat} : product? a b = none ↔ twoTo 64 ≤ a * b := by
  simp only [product?]
  split
  · next h => exact iff_of_false nofun (Nat.not_le_of_lt h)
  · next h => exact iff_of_true rfl (Nat.le_of_not_lt h)

end TermReplay.Number

import TermReplay.Number.Power

/-!
Binary64 numbers taken apart, and rounding of quotients: exact arithmetic on naturals where the
machine rounds.
-/

namespace TermReplay.Number

/-- A finite binary64 number as `mantissa * 2 ^ exponent`, without its sign. -/
def magnitude (f : Float) : Nat × Int :=
  let bits : Nat := f.toBits.toNat
  let fraction : Nat := bits % twoTo 52
  let biased : Nat := bits / twoTo 52 % twoTo 11
  if biased = 0 then (fraction, -1074) else (twoTo 52 + fraction, (biased : Int) - 1075)

/-- The natural number nearest to a quotient; of two equally near ones the even one. -/
def roundQuotient (numerator denominator : Nat) : Nat :=
  let below := numerator / denominator
  let twice := 2 * (numerator % denominator)
  if twice < denominator then below
  else if denominator < twice then below + 1
  else below + below % 2

end TermReplay.Number

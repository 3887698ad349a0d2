import TermReplay.Number.Binary64

/-!
Shortest decimals. A binary64 number is written with the fewest digits that read back as the same
number, and with the decimal nearest to it among those of that many digits. The search is exact:
the number and the ends of the interval of reals that round to it are quotients of naturals.
-/

namespace TermReplay.Number

structure Decimal where
  digits : Nat
  exponent : Int
  deriving DecidableEq, Repr

/-- A real number and the interval that rounds to it, all over one denominator. -/
structure Interval where
  low : Nat
  value : Nat
  high : Nat
  denominator : Nat
  /-- Whether the ends belong to it. -/
  closed : Bool
  deriving Repr

/-- The interval of `mantissa * 2 ^ exponent`. Below a power of two the neighbours are nearer, so
the lower half is half as wide there. The ends round to even mantissas only. -/
def Interval.of (mantissa : Nat) (exponent : Int) : Interval :=
  let up := twoTo exponent.toNat
  let down := twoTo (-exponent).toNat
  let narrow := mantissa = twoTo 52 ∧ -1074 < exponent
  { low := (4 * mantissa - (if narrow then 1 else 2)) * up
    value := 4 * mantissa * up
    high := (4 * mantissa + 2) * up
    denominator := 4 * down
    closed := mantissa % 2 = 0 }

/-- Whether `digits * unit / scale` rounds to the number. -/
def Interval.contains (i : Interval) (digits unit scale : Nat) : Bool :=
  let x := digits * unit * i.denominator
  if i.closed then i.low * scale ≤ x && x ≤ i.high * scale
  else i.low * scale < x && x < i.high * scale

/-- The grid point next to the value, among the multiples of `unit / scale`, that rounds to the
number: of two such points the nearer one, and the even one if both are equally near. -/
def Interval.nearest? (i : Interval) (unit scale : Nat) : Option Nat :=
  let below := i.value * scale / (i.denominator * unit)
  let above := below + 1
  match i.contains below unit scale, i.contains above unit scale with
  | true, true =>
    let gapBelow := i.value * scale - below * unit * i.denominator
    let gapAbove := above * unit * i.denominator - i.value * scale
    if gapBelow < gapAbove then some below
    else if gapAbove < gapBelow then some above
    else some (if below % 2 = 0 then below else above)
  | true, false => some below
  | false, true => some above
  | false, false => none

/-- The exponent of the first decimal digit of `value / denominator`, found from the number of
digits of both. -/
def Interval.leading (i : Interval) : Int :=
  let guess : Int :=
    ((Nat.toDigits 10 i.value).length : Int) - (Nat.toDigits 10 i.denominator).length
  if i.denominator * tenTo guess.toNat ≤ i.value * tenTo (-guess).toNat then guess else guess - 1

/-- Tries decimals of `count` digits, and of one more as long as `more` allows. -/
def Interval.search (i : Interval) (leading : Int) (count : Nat) : Nat → Decimal
  | 0 => ⟨0, 0⟩
  | more + 1 =>
    let exponent := leading + 1 - count
    match i.nearest? (tenTo exponent.toNat) (tenTo (-exponent).toNat) with
    | some digits => ⟨digits, exponent⟩
    | none => i.search leading (count + 1) more

/-- The shortest decimal of a finite number. Seventeen digits always suffice. -/
def decimal (f : Float) : Decimal :=
  let (mantissa, exponent) := magnitude f
  if mantissa = 0 then ⟨0, 0⟩
  else
    let i := Interval.of mantissa exponent
    i.search i.leading 1 17

/-- Digits without the zeros at the end, and the exponent of the first of them. -/
def Decimal.scientific (d : Decimal) : List Char × Int :=
  let all := Nat.toDigits 10 d.digits
  ((all.reverse.dropWhile (· == '0')).reverse, d.exponent + all.length - 1)

/-- Positional from 0.00001 up to below 10^16, and then with a fraction in any case; otherwise
scientific with a signed exponent. -/
def Decimal.write (d : Decimal) : List Char :=
  if d.digits = 0 then ['0', '.', '0']
  else
    let (digits, first) := d.scientific
    if 0 ≤ first ∧ first < 16 then
      let whole := first.toNat + 1
      let fraction := digits.drop whole
      digits.take whole ++ List.replicate (whole - digits.length) '0' ++
        '.' :: (if fraction.isEmpty then ['0'] else fraction)
    else if -5 ≤ first ∧ first < 0 then
      '0' :: '.' :: List.replicate ((-first).toNat - 1) '0' ++ digits
    else
      let fraction := digits.drop 1
      digits.take 1 ++ (if fraction.isEmpty then [] else '.' :: fraction) ++
        'e' :: (if first < 0 then '-' else '+') :: Nat.toDigits 10 first.natAbs

def shortest (f : Float) : String :=
  let sign := if f.toBits.toNat / twoTo 63 = 1 then ['-'] else []
  String.ofList (sign ++ (decimal f).write)

end TermReplay.Number

import TermReplay.Json.Fault
import TermReplay.Number.Power

/-!
Numbers as JSON spells them. A spelling is cut into its digits first; its value is a natural
number or a negative integer if it fits a machine word and has neither fraction nor exponent,
and a binary64 number otherwise: the digits that fit a word, scaled by a power of ten.
-/

namespace TermReplay.Json

inductive Numeral
  | natural (value : Nat)
  /-- The number `-value`. -/
  | negative (value : Nat)
  | float (value : Float)
  deriving DecidableEq, Repr

structure Spelling where
  negative : Bool
  whole : List Char
  fraction : Option (List Char)
  /-- Whether the exponent is negative, and its digits. -/
  exponent : Option (Bool × List Char)
  deriving Repr

namespace Spelling

def wordLimit : Nat := Number.twoTo 64 - 1

def digitValue (c : Char) : Nat := c.toNat - 48

/-- Reads digits into a significand while it fits a word; the rest is returned. -/
def significand : List Char → Nat → Nat × List Char
  | [], acc => (acc, [])
  | c :: cs, acc =>
    let next := acc * 10 + digitValue c
    if next ≤ wordLimit then significand cs next else (acc, c :: cs)

def powerOfTen (n : Nat) : Float := Float.ofScientific 1 false n

/-- Divides by the largest power of ten until what is left of the exponent is in range or
nothing is left of the number. -/
def scaleDown (f : Float) (exponent : Nat) : Float :=
  if exponent ≤ 308 then f / powerOfTen exponent
  else if f == 0.0 then f
  else scaleDown (f / powerOfTen 308) (exponent - 308)
  termination_by exponent

/-- A significand times a power of ten; `none` if it is beyond the largest number. -/
def scale? (significand : Nat) (exponent : Int) : Option Float :=
  let f := significand.toUInt64.toFloat
  if exponent < 0 then some (scaleDown f exponent.natAbs)
  else if exponent ≤ 308 then
    let product := f * powerOfTen exponent.natAbs
    if product.isFinite then some product else none
  else if f == 0.0 then some f
  else none

def exponentValue (s : Spelling) : Int :=
  match s.exponent with
  | none => 0
  | some (negative, digits) =>
    let n : Nat := Nat.ofDigitChars 10 digits 0
    if negative then -n else n

/-- The value as binary64. Digits of the whole part that do not fit count as a power of ten, and
those of the fraction do not count. -/
def float (s : Spelling) : Except Fault Float :=
  let (whole, left) := significand s.whole 0
  let fraction := s.fraction.getD []
  let (digits, unread) := significand fraction whole
  let exponent : Int :=
    (left.length : Int) - ((fraction.length : Int) - unread.length) + s.exponentValue
  match scale? digits exponent with
  | some f => .ok (if s.negative then -f else f)
  | none => .error .malformed

/-- The value. Minus zero is not an integer. -/
def numeral (s : Spelling) : Except Fault Numeral :=
  let (whole, left) := significand s.whole 0
  match left, s.fraction, s.exponent with
  | [], none, none =>
    if !s.negative then .ok (.natural whole)
    else if 1 ≤ whole ∧ whole ≤ Number.twoTo 63 then .ok (.negative whole)
    else s.float.map .float
  | _, _, _ => s.float.map .float

end Spelling

end TermReplay.Json

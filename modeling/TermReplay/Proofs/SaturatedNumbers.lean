import Mathlib.Data.List.Induction
import Mathlib.Data.Nat.Digits.Defs
import TermReplay.Proofs.ParameterLists

/-!
Numeric parameters. Digits are read from the left and the limit is applied twice at each of them,
after the multiplication and after the addition; what comes out is the value of all digits, limited
once. Words of sixteen bits whose products and sums stop at the largest word give the same.
-/

namespace TermReplay.Params

open Text

def value (digits : List UInt8) : Nat := Nat.ofDigits 10 (digits.map digitValue).reverse

def reading (part : List UInt8) : Option Nat :=
  if part = [] then none else some (min (value part) limit)

theorem value_concat (digits : List UInt8) (b : UInt8) :
    value (digits ++ [b]) = 10 * value digits + digitValue b := by
  rw [value, List.map_append, List.map_singleton, List.reverse_append, List.reverse_singleton,
    List.singleton_append, Nat.ofDigits_cons, Nat.add_comm]
  rfl

/-- To stop at the limit with every digit comes to the same as stopping there once. -/
theorem appendDigit_saturate (acc : Nat) (b : UInt8) :
    appendDigit (saturate acc) b = saturate (10 * acc + digitValue b) := by
  simp only [appendDigit, saturate, limit]
  omega

/-- At each digit the accumulator is the value so far, up to the limit. -/
theorem foldl_appendDigit (digits : List UInt8) :
    digits.foldl appendDigit 0 = saturate (value digits) := by
  induction digits using List.reverseRecOn with
  | nil => rfl
  | append_singleton digits b ih =>
      rw [List.foldl_append, ih, List.foldl_cons, List.foldl_nil, appendDigit_saturate,
        value_concat]

section

variable {part : List UInt8}

theorem number?_of_digits (h : ∀ b ∈ part, isDigit b = true) :
    number? part = some (reading part) := by
  cases part with
  | nil => rfl
  | cons b part =>
      have hdigits : (b :: part).all isDigit = true := List.all_eq_true.mpr h
      rw [number?, if_neg (by simp), if_pos hdigits, foldl_appendDigit, reading,
        if_neg (List.cons_ne_nil b part)]
      rfl

theorem number?_of_other {b : UInt8} (hb : b ∈ part) (h : isDigit b = false) :
    number? part = none := by
  have hempty : ¬part.isEmpty = true := fun he => by
    rw [List.isEmpty_iff.mp he] at hb
    cases hb
  have hdigits : ¬part.all isDigit = true := fun hall => by
    rw [List.all_eq_true.mp hall b hb] at h
    cases h
  rw [number?, if_neg hempty, if_neg hdigits]

theorem mapM_number?_of_digits {parts : List (List UInt8)}
    (h : ∀ part ∈ parts, ∀ b ∈ part, isDigit b = true) :
    parts.mapM number? = some (parts.map reading) := by
  induction parts with
  | nil => rfl
  | cons part parts ih =>
      obtain ⟨hpart, hparts⟩ := List.forall_mem_cons.mp h
      rw [List.mapM_cons, number?_of_digits hpart, ih hparts]
      rfl

theorem mapM_number?_of_other {parts : List (List UInt8)} (hp : part ∈ parts) {b : UInt8}
    (hb : b ∈ part) (h : isDigit b = false) : parts.mapM number? = none := by
  induction parts with
  | nil => cases hp
  | cons first parts ih =>
      rw [List.mapM_cons]
      obtain rfl | hrest := List.mem_cons.mp hp
      · rw [number?_of_other hb h]
        rfl
      · rw [ih hrest]
        cases number? first <;> rfl

end

theorem split_ne_nil (params : List UInt8) : split params ≠ [] := by
  rw [split_eq_splitOn]
  exact List.splitOn_ne_nil semicolon params

/-- The parts hold every byte but the semicolons. -/
theorem forall_mem_split {p : UInt8 → Prop} (params : List UInt8) :
    (∀ part ∈ split params, ∀ b ∈ part, p b) ↔ ∀ b ∈ params, p b ∨ b = semicolon := by
  induction params with
  | nil => simp [split]
  | cons b params ih =>
      obtain ⟨part, parts, hparts⟩ := List.exists_cons_of_ne_nil (split_ne_nil params)
      rw [hparts] at ih
      rw [List.forall_mem_cons, ← ih, split, hparts]
      by_cases hb : b = semicolon
      · simp [hb]
      · simp [hb, and_assoc]

theorem numbers?_of_digits {params : List UInt8}
    (h : ∀ b ∈ params, isDigit b = true ∨ b = semicolon) :
    numbers? params = some ((split params).map reading) :=
  mapM_number?_of_digits ((forall_mem_split params).mpr h)

theorem numbers?_of_other {params : List UInt8} {b : UInt8} (hb : b ∈ params)
    (hs : b ≠ semicolon) (h : isDigit b = false) : numbers? params = none := by
  obtain ⟨part, hpart, hmem⟩ : ∃ part ∈ split params, b ∈ part := by
    by_contra hnone
    have hother : ∀ part ∈ split params, ∀ c ∈ part, c ≠ b := by
      rintro part hpart c hc rfl
      exact hnone ⟨part, hpart, hc⟩
    exact ((forall_mem_split params).mp hother b hb).elim (· rfl) hs
  exact mapM_number?_of_other hpart hmem h

/-- The product of two words, or the largest word if the product takes more than sixteen bits. -/
def saturatingMul (a b : UInt16) : UInt16 :=
  if BitVec.umulOverflow a.toBitVec b.toBitVec then 0xffff else a * b

def saturatingAdd (a b : UInt16) : UInt16 :=
  if BitVec.uaddOverflow a.toBitVec b.toBitVec then 0xffff else a + b

def appendWordDigit (acc : UInt16) (b : UInt8) : UInt16 :=
  saturatingAdd (saturatingMul acc 10) (b - 0x30).toUInt16

/-- A parameter, read with the arithmetic of words. -/
def wordNumber? (part : List UInt8) : Option (Option UInt16) :=
  if part.isEmpty then some none
  else if part.all isDigit then some (some (part.foldl appendWordDigit 0))
  else none

/-- A word that stands for `n`, unless `n` exceeds all words. -/
theorem toNat_saturated {exceeds : Bool} {word : UInt16} {n : Nat}
    (hexceeds : exceeds = true ↔ UInt16.size ≤ n) (hword : ¬exceeds = true → word.toNat = n) :
    (if exceeds then 0xffff else word).toNat = saturate n := by
  rw [saturate]
  split
  · next h =>
      have hlarge : limit ≤ n := Nat.le_of_succ_le (hexceeds.mp h)
      rw [Nat.min_eq_right hlarge]
      rfl
  · next h =>
      have hfits : n ≤ limit := Nat.le_of_lt_succ (Nat.lt_of_not_le (mt hexceeds.mpr h))
      rw [Nat.min_eq_left hfits, hword h]

theorem toNat_saturatingMul (a b : UInt16) :
    (saturatingMul a b).toNat = saturate (a.toNat * b.toNat) :=
  toNat_saturated decide_eq_true_iff BitVec.toNat_mul_of_not_umulOverflow

theorem toNat_saturatingAdd (a b : UInt16) :
    (saturatingAdd a b).toNat = saturate (a.toNat + b.toNat) :=
  toNat_saturated decide_eq_true_iff BitVec.toNat_add_of_not_uaddOverflow

theorem toNat_digit :
    ∀ b : UInt8, isDigit b = true → (b - 0x30).toUInt16.toNat = digitValue b :=
  TokenKind.forall_byte (by decide +kernel)

theorem toNat_appendWordDigit (acc : UInt16) {b : UInt8} (h : isDigit b = true) :
    (appendWordDigit acc b).toNat = appendDigit acc.toNat b := by
  rw [appendWordDigit, toNat_saturatingAdd, toNat_saturatingMul, toNat_digit b h]
  rfl

theorem toNat_foldl_appendWordDigit {digits : List UInt8} (h : ∀ b ∈ digits, isDigit b = true)
    (acc : UInt16) :
    (digits.foldl appendWordDigit acc).toNat = digits.foldl appendDigit acc.toNat := by
  induction digits generalizing acc with
  | nil => rfl
  | cons b digits ih =>
      obtain ⟨hb, hrest⟩ := List.forall_mem_cons.mp h
      rw [List.foldl_cons, List.foldl_cons, ih hrest, toNat_appendWordDigit acc hb]

theorem wordNumber?_toNat (part : List UInt8) :
    (wordNumber? part).map (Option.map UInt16.toNat) = number? part := by
  rw [wordNumber?, number?]
  split
  · rfl
  · split
    · next hdigits =>
        have hsum := toNat_foldl_appendWordDigit (List.all_eq_true.mp hdigits) 0
        simp only [Option.map_some, hsum]
        rfl
    · rfl

/-- A parameter of digits, with zeros in front or without and of any length, is read as its value
up to the limit; an empty one is absent; with any other byte it is not a number. Words give the
same numbers. A list is read if each of its parameters is, and then one by one. -/
theorem numbers_stop_at_limit :
    (∀ part : List UInt8, part ≠ [] → (∀ b ∈ part, isDigit b = true) →
        number? part = some (some (min (value part) 65535))) ∧
      number? [] = some none ∧
      (∀ part : List UInt8, ∀ b ∈ part, isDigit b = false → number? part = none) ∧
      (∀ part : List UInt8, (wordNumber? part).map (Option.map UInt16.toNat) = number? part) ∧
      (∀ params : List UInt8, (∀ b ∈ params, isDigit b = true ∨ b = semicolon) →
        numbers? params = some ((split params).map reading)) ∧
      ∀ params : List UInt8, ∀ b ∈ params, b ≠ semicolon → isDigit b = false →
        numbers? params = none := by
  refine ⟨?_, rfl, fun _ _ => number?_of_other, wordNumber?_toNat, fun _ => numbers?_of_digits,
    fun _ _ => numbers?_of_other⟩
  intro part hne hdigits
  rw [number?_of_digits hdigits, reading, if_neg hne]
  rfl

/-- Leading zeros in front of the first value past the limit, a colon between digits, and a list
with an empty parameter. -/
theorem numbers_stop_at_limit_past_zeros :
    let large := asciiBytes "0065536"
    let parts := asciiBytes "12:3"
    let list := asciiBytes "7;;0065536"
    large ≠ [] ∧ (∀ b ∈ large, isDigit b = true) ∧ value large = 65536 ∧
      number? large = some (some 65535) ∧
      0x3a ∈ parts ∧ isDigit 0x3a = false ∧ number? parts = none ∧
      (∀ b ∈ list, isDigit b = true ∨ b = semicolon) ∧
      numbers? list = some [some 7, none, some 65535] ∧
      0x3a ≠ semicolon ∧ numbers? parts = none := by
  intro large parts list
  have hne : large ≠ [] := by decide +kernel
  have hdigits : ∀ b ∈ large, isDigit b = true := by decide +kernel
  have hvalue : value large = 65536 := by decide +kernel
  have hcolon : (0x3a : UInt8) ∈ parts := by decide +kernel
  have hlist : ∀ b ∈ list, isDigit b = true ∨ b = semicolon := by decide +kernel
  have hreadings : (split list).map reading = [some 7, none, some 65535] := by decide +kernel
  have hother : (0x3a : UInt8) ≠ semicolon := by decide
  obtain ⟨hread, -, hnumber, -, hreads, hnumbers⟩ := numbers_stop_at_limit
  have hlarge := hread large hne hdigits
  rw [hvalue] at hlarge
  exact ⟨hne, hdigits, hvalue, hlarge, hcolon, rfl, hnumber parts 0x3a hcolon rfl, hlist,
    hreadings ▸ hreads list hlist, hother, hnumbers parts 0x3a hcolon hother rfl⟩

end TermReplay.Params

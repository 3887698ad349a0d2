import TermReplay.Json.Node
import TermReplay.Json.Value

/-!
Numbers and quoted text, written and read again. What stands behind a value in a written text is
a comma, the end of a line, or nothing, and each of them ends a number.
-/

namespace TermReplay.Json

/-- Nothing that stands here goes on with a value. -/
def Ends (rest : List Char) : Prop := ∀ c ∈ rest.head?, c = ',' ∨ c = '\n'

theorem ends_nil : Ends [] := by
  intro c hc
  cases hc

theorem ends_comma (rest : List Char) : Ends (',' :: rest) := by
  intro c hc
  cases hc
  exact .inl rfl

theorem ends_newLine (level : Nat) (rest : List Char) : Ends (newLine level ++ rest) := by
  intro c hc
  cases hc
  exact .inr rfl

theorem Ends.takeWhile_isDigit {rest : List Char} (h : Ends rest) :
    rest.takeWhile Char.isDigit = [] := by
  cases rest with
  | nil => rfl
  | cons c cs =>
      obtain rfl | rfl := h c rfl <;> rfl

theorem Ends.dropWhile_isDigit {rest : List Char} (h : Ends rest) :
    rest.dropWhile Char.isDigit = rest := by
  cases rest with
  | nil => rfl
  | cons c cs =>
      obtain rfl | rfl := h c rfl <;> rfl

theorem isDigit_of_mem_digits {n : Nat} {c : Char} (hc : c ∈ Nat.toDigits 10 n) :
    c.isDigit = true :=
  Nat.isDigit_of_mem_toDigits (by decide) (by decide) hc

/-- Only zero is written with a zero in front. -/
theorem head_digits (n : Nat) :
    ∃ c cs, Nat.toDigits 10 n = c :: cs ∧ c.isDigit = true ∧ (c = '0' → n = 0) := by
  induction n using Nat.strongRecOn with
  | ind n ih =>
      by_cases hn : n < 10
      · refine ⟨n.digitChar, [], Nat.toDigits_of_lt_base hn, ?_, Nat.digitChar_eq_zero.mp⟩
        rw [Nat.isDigit_digitChar, decide_eq_true hn]
      · obtain ⟨c, cs, heq, hdigit, hzero⟩ := ih (n / 10) (by omega)
        refine ⟨c, cs ++ [(n % 10).digitChar], ?_, hdigit, ?_⟩
        · rw [Nat.toDigits_of_base_le (by decide) (by omega), heq, List.cons_append]
        · intro hc
          have hq := hzero hc
          omega

namespace Spelling

theorem le_ofDigitChars (ds : List Char) (acc : Nat) : acc ≤ Nat.ofDigitChars 10 ds acc := by
  induction ds generalizing acc with
  | nil => exact Nat.le_refl acc
  | cons d ds ih =>
      rw [Nat.ofDigitChars_cons]
      refine Nat.le_trans ?_ (ih _)
      omega

theorem significand_eq {ds : List Char} {acc : Nat}
    (h : Nat.ofDigitChars 10 ds acc ≤ wordLimit) :
    significand ds acc = (Nat.ofDigitChars 10 ds acc, []) := by
  induction ds generalizing acc with
  | nil => rfl
  | cons d ds ih =>
      have hnext : acc * 10 + digitValue d = 10 * acc + (d.toNat - '0'.toNat) := by
        rw [Nat.mul_comm]
        rfl
      rw [Nat.ofDigitChars_cons] at h ⊢
      have hfirst := Nat.le_trans (le_ofDigitChars ds _) h
      rw [significand]
      simp only [hnext, if_pos hfirst]
      exact ih h

theorem numeral_digits {n : Nat} (hn : n ≤ wordLimit) :
    numeral ⟨false, Nat.toDigits 10 n, none, none⟩ = .ok (.natural n) := by
  have hvalue : significand (Nat.toDigits 10 n) 0 = (n, []) := by
    rw [significand_eq, Nat.ofDigitChars_ten_toDigits]
    rw [Nat.ofDigitChars_ten_toDigits]
    exact hn
  simp [numeral, hvalue]

end Spelling

namespace Reading

theorem cutFraction_ends (spelling : Spelling) {rest : List Char} (h : Ends rest) :
    cutFraction spelling rest = (.ok spelling, .ok rest) := by
  cases rest with
  | nil => rfl
  | cons c cs =>
      obtain rfl | rfl := h c rfl <;> rfl

theorem cutNumber_digits (n : Nat) {rest : List Char} (h : Ends rest) :
    cutNumber false (Nat.toDigits 10 n ++ rest) =
      (.ok ⟨false, Nat.toDigits 10 n, none, none⟩, .ok rest) := by
  obtain ⟨c, cs, heq, hdigit, hzero⟩ := head_digits n
  by_cases hc : c = '0'
  · obtain rfl := hzero hc
    rw [Nat.toDigits_zero, List.cons_append, List.nil_append]
    have hhead : rest.head?.any Char.isDigit = false := by
      cases rest with
      | nil => rfl
      | cons c cs => obtain rfl | rfl := h c rfl <;> rfl
    simp only [cutNumber, hhead, Bool.false_eq_true, if_false]
    exact cutFraction_ends _ h
  · have hall : ∀ d ∈ cs, d.isDigit = true := by
      intro d hd
      exact isDigit_of_mem_digits (n := n) (heq ▸ List.mem_cons_of_mem _ hd)
    rw [heq, List.cons_append]
    simp only [cutNumber, if_neg hc, hdigit, if_true]
    rw [List.takeWhile_append_of_pos hall, List.dropWhile_append_of_pos hall,
      h.takeWhile_isDigit, h.dropWhile_isDigit, List.append_nil]
    exact cutFraction_ends _ h

/-- A number that fits a machine word is read as it was written. -/
theorem number_digits {n : Nat} (hn : n ≤ Spelling.wordLimit) {rest : List Char}
    (h : Ends rest) :
    number false (Nat.toDigits 10 n ++ rest) = (.number (.ok (.natural n)), .ok rest) := by
  simp only [number, cutNumber_digits n h, Except.bind, Spelling.numeral_digits hn]

/-- A control character without a short escape is written as the unit that it is. -/
theorem hexUnit_control {n : Nat} (hn : n < 0x20) :
    hexUnit? '0' '0' (Nat.digitChar (n / 16)) (Nat.digitChar (n % 16)) = some n := by
  have hall : ∀ m < 0x20,
      hexUnit? '0' '0' (Nat.digitChar (m / 16)) (Nat.digitChar (m % 16)) = some m := by
    decide
  exact hall n hn

theorem quoted_control {c : Char} (hc : c.toNat < 0x20) (cs : List Char) :
    quoted none ('\x5c' :: 'u' :: '0' :: '0' :: Text.hexByte (UInt8.ofNat c.toNat) ++ cs) =
      (consChar c (quoted none cs).1, (quoted none cs).2) := by
  have hbyte : (UInt8.ofNat c.toNat).toNat = c.toNat := by
    rw [UInt8.toNat_ofNat']
    omega
  have hlead : isLeading c.toNat = false := by
    simp only [isLeading, Bool.and_eq_false_iff, decide_eq_false_iff_not]
    omega
  have htrail : isTrailing c.toNat = false := by
    simp only [isTrailing, Bool.and_eq_false_iff, decide_eq_false_iff_not]
    omega
  simp only [Text.hexByte, hbyte, List.cons_append, List.nil_append]
  rw [quoted]
  simp only [Char.reduceEq, if_false, if_true, unit, hexUnit_control hc, hlead, htrail,
    Bool.false_eq_true, Char.ofNat_toNat]

theorem quoted_shortEscape {letter c : Char} (h : shortEscape? letter = some c)
    (hu : letter ≠ 'u') (cs : List Char) :
    quoted none ('\x5c' :: letter :: cs) =
      (consChar c (quoted none cs).1, (quoted none cs).2) := by
  rw [quoted]
  simp only [Char.reduceEq, if_false, if_true, if_neg hu, h]

theorem quoted_escapeChar (c : Char) (cs : List Char) :
    quoted none (escapeChar c ++ cs) = (consChar c (quoted none cs).1, (quoted none cs).2) := by
  rw [escapeChar]
  split
  · next hc => obtain rfl | rfl := hc <;> exact quoted_shortEscape rfl (by decide) cs
  · next hplain =>
      split
      · next hc => exact quoted_shortEscape (by rw [hc]; rfl) (by decide) cs
      split
      · next hc => exact quoted_shortEscape (by rw [hc]; rfl) (by decide) cs
      split
      · next hc => exact quoted_shortEscape (by rw [hc]; rfl) (by decide) cs
      split
      · next hc => exact quoted_shortEscape (by rw [hc]; rfl) (by decide) cs
      split
      · next hc => exact quoted_shortEscape (by rw [hc]; rfl) (by decide) cs
      split
      · next hc => exact quoted_control hc cs
      · next hc =>
          rw [not_or] at hplain
          rw [List.singleton_append, quoted.eq_def]
          simp only [if_neg hplain.1, if_neg hplain.2, if_neg hc]

theorem quoted_escaped (cs rest : List Char) :
    quoted none (cs.flatMap escapeChar ++ '\x22' :: rest) = (.ok cs, .ok rest) := by
  induction cs with
  | nil =>
      rw [List.flatMap_nil, List.nil_append, quoted.eq_def]
      rfl
  | cons c cs ih =>
      rw [List.flatMap_cons, List.append_assoc, quoted_escapeChar, ih]
      rfl

/-- Text is read as it was quoted, whatever its characters are. -/
theorem text_escaped (s : String) (rest : List Char) :
    text (s.toList.flatMap escapeChar ++ '\x22' :: rest) = (.ok s, .ok rest) := by
  simp only [text, quoted_escaped, Except.map, String.ofList_toList]

end Reading

end TermReplay.Json

import TermReplay.Proofs.WaitingBuffers

/-!
The bytes of characters beyond ASCII. Between the ranges that a lead byte gives for the bytes
after it and the encodings of characters stands a table of sequences in numbers: both sides give
exactly the sequences of the table.
-/

namespace TermReplay.Text.Utf8

/-- A byte that goes on with a character and carries six bits of it. -/
def IsContinuation (b : UInt8) : Prop := 0x80 ≤ b.toNat ∧ b.toNat ≤ 0xbf

instance (b : UInt8) : Decidable (IsContinuation b) := inferInstanceAs (Decidable (_ ∧ _))

/-- The sequences of two, three and four bytes that are characters. The second byte after some
leads has a narrower range: below it the character has a shorter form, and above it there are
surrogates or no characters at all. -/
inductive Sequence : List UInt8 → Prop
  | two {a b : UInt8} (hlow : 0xc2 ≤ a.toNat) (hhigh : a.toNat ≤ 0xdf)
      (hb : IsContinuation b) : Sequence [a, b]
  | three {a b c : UInt8} (hlow : 0xe0 ≤ a.toNat) (hhigh : a.toNat ≤ 0xef)
      (hb : IsContinuation b) (hc : IsContinuation c)
      (hshortest : a.toNat = 0xe0 → 0xa0 ≤ b.toNat)
      (hsurrogate : a.toNat = 0xed → b.toNat ≤ 0x9f) : Sequence [a, b, c]
  | four {a b c d : UInt8} (hlow : 0xf0 ≤ a.toNat) (hhigh : a.toNat ≤ 0xf4)
      (hb : IsContinuation b) (hc : IsContinuation c) (hd : IsContinuation d)
      (hshortest : a.toNat = 0xf0 → 0x90 ≤ b.toNat)
      (hlast : a.toNat = 0xf4 → b.toNat ≤ 0x8f) : Sequence [a, b, c, d]

/-- The ranges of all leads, in numbers. -/
theorem following_eq : ∀ a : UInt8, following? a =
    if 0xc2 ≤ a.toNat ∧ a.toNat ≤ 0xdf then some [continuation]
    else if 0xe0 ≤ a.toNat ∧ a.toNat ≤ 0xef then
      some [⟨if a.toNat = 0xe0 then 0xa0 else 0x80, if a.toNat = 0xed then 0x9f else 0xbf⟩,
        continuation]
    else if 0xf0 ≤ a.toNat ∧ a.toNat ≤ 0xf4 then
      some [⟨if a.toNat = 0xf0 then 0x90 else 0x80, if a.toNat = 0xf4 then 0x8f else 0xbf⟩,
        continuation, continuation]
    else none :=
  TokenKind.forall_byte (by decide +kernel)

theorem contains_continuation {b : UInt8} :
    continuation.contains b = true ↔ IsContinuation b := by
  simp only [ByteRange.contains, continuation, Bool.and_eq_true, decide_eq_true_eq,
    UInt8.le_iff_toNat_le]
  rfl

/-- A range that is narrower at one end under a condition. -/
theorem contains_narrow {p q : Prop} [Decidable p] [Decidable q] {low high b : UInt8}
    (hlow : IsContinuation low) (hhigh : IsContinuation high) :
    (⟨if p then low else 0x80, if q then high else 0xbf⟩ : ByteRange).contains b = true ↔
      IsContinuation b ∧ (p → low.toNat ≤ b.toNat) ∧ (q → b.toNat ≤ high.toNat) := by
  simp only [ByteRange.contains, Bool.and_eq_true, decide_eq_true_eq, UInt8.le_iff_toNat_le]
  simp only [IsContinuation] at *
  by_cases hp : p <;> by_cases hq : q <;>
    simp only [hp, hq, if_true, if_false, forall_const, UInt8.reduceToNat] <;> grind

theorem follow_cons_complete_iff {r : ByteRange} {ranges : List ByteRange} {bytes : List UInt8}
    {fits n : Nat} :
    follow (r :: ranges) bytes fits = .complete n ↔
      ∃ b rest, bytes = b :: rest ∧ r.contains b = true ∧
        follow ranges rest (fits + 1) = .complete n := by
  cases bytes with
  | nil => simp [follow]
  | cons b rest =>
      simp only [follow, List.cons.injEq]
      constructor
      · intro h
        split at h
        · next hb => exact ⟨b, rest, ⟨rfl, rfl⟩, hb, h⟩
        · cases h
      · rintro ⟨_, _, ⟨rfl, rfl⟩, hb, h⟩
        rwa [if_pos hb]

theorem follow_nil_complete_iff {bytes : List UInt8} {fits n : Nat} :
    follow [] bytes fits = .complete n ↔ fits = n := by
  simp [follow]

/-- A complete character is a sequence in front. -/
theorem sequence_of_front {a : UInt8} {bytes : List UInt8} {n : Nat}
    (h : front (a :: bytes) = .complete n) :
    ∃ taken, taken <+: a :: bytes ∧ taken.length = n ∧ Sequence taken := by
  simp only [front, following_eq a] at h
  split at h
  · cases h
  · next ranges hranges =>
      split at hranges
      · next ha =>
          cases hranges
          simp only [follow_cons_complete_iff, follow_nil_complete_iff,
            contains_continuation] at h
          obtain ⟨b, rest, rfl, hb, rfl⟩ := h
          exact ⟨[a, b], ⟨rest, rfl⟩, rfl, .two ha.1 ha.2 hb⟩
      · split at hranges
        · next ha =>
            cases hranges
            simp only [follow_cons_complete_iff, follow_nil_complete_iff,
              contains_continuation] at h
            obtain ⟨b, _, rfl, hnarrow, c, rest, rfl, hc, rfl⟩ := h
            obtain ⟨hb, hshortest, hsurrogate⟩ :=
              (contains_narrow (by decide) (by decide)).mp hnarrow
            exact ⟨[a, b, c], ⟨rest, rfl⟩, rfl, .three ha.1 ha.2 hb hc hshortest hsurrogate⟩
        · split at hranges
          · next ha =>
              cases hranges
              simp only [follow_cons_complete_iff, follow_nil_complete_iff,
                contains_continuation] at h
              obtain ⟨b, _, rfl, hnarrow, c, _, rfl, hc, d, rest, rfl, hd, rfl⟩ := h
              obtain ⟨hb, hshortest, hlast⟩ :=
                (contains_narrow (by decide) (by decide)).mp hnarrow
              exact ⟨[a, b, c, d], ⟨rest, rfl⟩, rfl,
                .four ha.1 ha.2 hb hc hd hshortest hlast⟩
          · cases hranges

/-- A sequence in front is a complete character. -/
theorem Sequence.front {taken : List UInt8} (h : Sequence taken) (rest : List UInt8) :
    Utf8.front (taken ++ rest) = .complete taken.length := by
  cases h with
  | @two a b hlow hhigh hb =>
      simp [Utf8.front, following_eq a, hlow, hhigh, follow, contains_continuation.mpr hb]
  | @three a b c hlow hhigh hb hc hshortest hsurrogate =>
      have hnarrow := (contains_narrow (by decide : IsContinuation 0xa0)
        (by decide : IsContinuation 0x9f)).mpr ⟨hb, hshortest, hsurrogate⟩
      have htwo : ¬ a.toNat ≤ 0xdf := by omega
      simp [Utf8.front, following_eq a, hlow, hhigh, htwo, follow, hnarrow,
        contains_continuation.mpr hc]
  | @four a b c d hlow hhigh hb hc hd hshortest hlast =>
      have hnarrow := (contains_narrow (by decide : IsContinuation 0x90)
        (by decide : IsContinuation 0x8f)).mpr ⟨hb, hshortest, hlast⟩
      have htwo : ¬ a.toNat ≤ 0xdf := by omega
      have hthree : ¬ a.toNat ≤ 0xef := by omega
      simp [Utf8.front, following_eq a, hlow, hhigh, htwo, hthree, follow, hnarrow,
        contains_continuation.mpr hc, contains_continuation.mpr hd]

/-- A buffer is the beginning of a character if bytes are missing from a sequence. -/
theorem front_truncated_iff {a : UInt8} {bytes : List UInt8} :
    front (a :: bytes) = .truncated ↔
      ∃ taken, Sequence taken ∧ a :: bytes <+: taken ∧ a :: bytes ≠ taken := by
  constructor
  · intro h
    obtain ⟨more, -, hfront⟩ := front_completed h
    obtain ⟨taken, htaken, hlength, hsequence⟩ := sequence_of_front hfront
    obtain rfl := htaken.eq_of_length hlength
    refine ⟨_, hsequence, List.prefix_append (a :: bytes) more, fun he => ?_⟩
    rw [← he, h] at hfront
    cases hfront
  · rintro ⟨taken, hsequence, ⟨more, rfl⟩, hne⟩
    have hfront := hsequence.front []
    rw [List.append_nil] at hfront
    apply Decidable.byContradiction
    intro hsettled
    rw [front_append hsettled] at hfront
    have hlength := (front_complete hfront).2
    rw [List.length_append] at hlength
    obtain rfl := List.eq_nil_of_length_eq_zero (show more.length = 0 by omega)
    exact hne (List.append_nil _).symm

theorem scalar_two (a b : UInt8) : scalar [a, b] = a.toNat % 32 * 64 + b.toNat % 64 := rfl

theorem scalar_three (a b c : UInt8) :
    scalar [a, b, c] = (a.toNat % 16 * 64 + b.toNat % 64) * 64 + c.toNat % 64 := rfl

theorem scalar_four (a b c d : UInt8) :
    scalar [a, b, c, d] =
      ((a.toNat % 8 * 64 + b.toNat % 64) * 64 + c.toNat % 64) * 64 + d.toNat % 64 := rfl

/-- The value of a sequence is a scalar value beyond ASCII. -/
theorem Sequence.valid {bytes : List UInt8} (h : Sequence bytes) :
    0x80 ≤ scalar bytes ∧ (scalar bytes).isValidChar := by
  cases h <;>
    simp only [IsContinuation, scalar_two, scalar_three, scalar_four, Nat.isValidChar] at * <;>
    omega

theorem Sequence.toNat_character {bytes : List UInt8} (h : Sequence bytes) :
    (character bytes).toNat = scalar bytes := by
  rw [character, toNat_ofNat h.valid.2]

/-- A sequence is the encoding of the character that it is read as. -/
theorem Sequence.encoded {bytes : List UInt8} (h : Sequence bytes) :
    String.utf8EncodeChar (character bytes) = bytes := by
  have hval : (character bytes).val.toNat = scalar bytes := h.toNat_character
  rw [String.utf8EncodeChar, hval]
  cases h with
  | @two a b hlow hhigh hb =>
      have hvalue := scalar_two a b
      simp only [IsContinuation] at hb
      rw [if_neg (by omega), if_pos (by omega)]
      simp only [List.cons.injEq, ← UInt8.toNat_inj, UInt8.toNat_ofNat', and_true]
      omega
  | @three a b c hlow hhigh hb hc hshortest _ =>
      have hvalue := scalar_three a b c
      simp only [IsContinuation] at hb hc
      rw [if_neg (by omega), if_neg (by omega), if_pos (by omega)]
      simp only [List.cons.injEq, ← UInt8.toNat_inj, UInt8.toNat_ofNat', and_true]
      omega
  | @four a b c d hlow hhigh hb hc hd hshortest _ =>
      have hvalue := scalar_four a b c d
      simp only [IsContinuation] at hb hc hd
      rw [if_neg (by omega), if_neg (by omega), if_neg (by omega)]
      simp only [List.cons.injEq, ← UInt8.toNat_inj, UInt8.toNat_ofNat', and_true]
      omega

/-- The encoding of a character beyond ASCII is a sequence with its value. -/
theorem sequence_encoded {c : Char} (h : 0x80 ≤ c.toNat) :
    Sequence (String.utf8EncodeChar c) ∧ scalar (String.utf8EncodeChar c) = c.toNat := by
  have hval : c.val.toNat = c.toNat := rfl
  have hvalid : c.toNat < 0xd800 ∨ 0xdfff < c.toNat ∧ c.toNat < 0x110000 := c.valid
  fun_cases String.utf8EncodeChar
  · omega
  all_goals
    constructor
    · constructor <;> simp only [IsContinuation, UInt8.toNat_ofNat'] <;> omega
    · simp only [scalar_two, scalar_three, scalar_four, UInt8.toNat_ofNat']
      omega

theorem character_encoded {c : Char} (h : 0x80 ≤ c.toNat) :
    character (String.utf8EncodeChar c) = c := by
  rw [character, (sequence_encoded h).2, Char.ofNat_toNat]

theorem sequence_iff {bytes : List UInt8} :
    Sequence bytes ↔ ∃ c : Char, 0x80 ≤ c.toNat ∧ String.utf8EncodeChar c = bytes := by
  constructor
  · intro h
    exact ⟨character bytes, h.toNat_character ▸ h.valid.1, h.encoded⟩
  · rintro ⟨c, hc, rfl⟩
    exact (sequence_encoded hc).1

theorem encoded_ascii {c : Char} (h : c.toNat < 0x80) :
    String.utf8EncodeChar c = [UInt8.ofNat c.toNat] :=
  if_pos (Nat.le_of_lt_succ h)

theorem Sequence.high {bytes : List UInt8} (h : Sequence bytes) : ∀ b ∈ bytes, 0x80 ≤ b.toNat := by
  cases h <;> simp only [IsContinuation, List.forall_mem_cons] at * <;> simp <;> omega

theorem toUTF8_eq (text : String) :
    text.toUTF8.data.toList = text.toList.flatMap String.utf8EncodeChar := by
  rw [String.toUTF8_eq_toByteArray, ← String.utf8Encode_toList, List.utf8Encode,
    List.toList_data_toByteArray]

theorem pieces_encoded (c : Char) (bytes : List UInt8) :
    pieces (String.utf8EncodeChar c ++ bytes) = some c :: pieces bytes := by
  by_cases hc : c.toNat < 0x80
  · have hbyte : (UInt8.ofNat c.toNat).toNat = c.toNat :=
      UInt8.toNat_ofNat_of_lt' (Nat.lt_trans hc (by decide))
    have hlow : UInt8.ofNat c.toNat < 0x80 := by
      rw [UInt8.lt_iff_toNat_lt, hbyte]
      exact hc
    rw [encoded_ascii hc, List.singleton_append, pieces, if_pos hlow, hbyte, Char.ofNat_toNat]
  · have hhigh := Nat.le_of_not_lt hc
    obtain ⟨hsequence, -⟩ := sequence_encoded hhigh
    have hfront := hsequence.front bytes
    have hcharacter := character_encoded hhigh
    obtain ⟨b, bs, hbytes⟩ :=
      List.exists_cons_of_ne_nil (String.utf8EncodeChar_ne_nil (c := c))
    rw [hbytes] at hsequence hfront hcharacter ⊢
    have hb : ¬ b < 0x80 := fun hlt =>
      Nat.not_le_of_lt (UInt8.lt_iff_toNat_lt.mp hlt) (hsequence.high b (List.mem_cons_self ..))
    rw [List.cons_append] at hfront ⊢
    rw [pieces, if_neg hb, hfront]
    simp only [List.length_cons, Nat.add_sub_cancel, List.take_left, List.drop_left, hcharacter]

theorem decodeLossy_encoded (cs : List Char) :
    decodeLossy (cs.flatMap String.utf8EncodeChar) = cs := by
  induction cs with
  | nil => rw [List.flatMap_nil, decodeLossy, pieces, List.map_nil]
  | cons c cs ih =>
      rw [decodeLossy] at ih
      rw [List.flatMap_cons, decodeLossy, pieces_encoded, List.map_cons, ih, Option.getD_some]

end TermReplay.Text.Utf8

import TermReplay.Proofs.CharacterBytes

/-!
Text in UTF-8. In front of a buffer that begins with a high byte stands a character exactly if
its encoding does, and the buffer waits exactly while it is the beginning of an encoding. So the
bytes of a text without control characters come out as that text.
-/

namespace TermReplay

open Text Recognizer

def givenUp (b : UInt8) : Token :=
  ⟨1, [.warning ("invalid UTF-8 byte " ++ namedByte b),
    .command (.print (String.singleton Utf8.replacement))]⟩

theorem nextToken_of_high {b : UInt8} (hb : isHigh b = true) (bs : List UInt8) :
    nextToken (b :: bs) =
      match Utf8.front (b :: bs) with
      | .complete n =>
        some (.command n (.print (String.singleton (Utf8.character ((b :: bs).take n)))))
      | .truncated => none
      | .invalid _ => some (givenUp b) := by
  rw [nextToken_eq, TokenKind.ofBuffer_of_high hb]
  cases hf : Utf8.front (b :: bs) <;>
    simp [TokenKind.recognizer, multiByte, invalidByte, givenUp, hb, hf]

theorem isHigh_iff {b : UInt8} : isHigh b = true ↔ 0x80 ≤ b.toNat := by
  rw [isHigh, decide_eq_true_eq, UInt8.le_iff_toNat_le]
  rfl

namespace Text.Utf8

theorem Sequence.isHigh {b : UInt8} {bytes : List UInt8} (h : Sequence (b :: bytes)) :
    isHigh b = true := by
  rw [isHigh_iff]
  cases h <;> omega

theorem Sequence.exists_lead {bytes : List UInt8} (h : Sequence bytes) :
    ∃ b rest, bytes = b :: rest := by
  cases h <;> exact ⟨_, _, rfl⟩

variable {b : UInt8} {bs : List UInt8}

/-- Only characters beyond ASCII begin with a high byte. -/
theorem le_toNat_of_encoded {c : Char} (hb : isHigh b = true)
    (h : String.utf8EncodeChar c = b :: bs) : 0x80 ≤ c.toNat := by
  apply Nat.le_of_not_lt
  intro hc
  obtain rfl := (List.cons.inj ((encoded_ascii hc).symm.trans h)).1
  rw [isHigh_iff, UInt8.toNat_ofNat'] at hb
  exact Nat.not_le_of_lt hc (Nat.le_trans hb (Nat.mod_le _ _))

/-- An encoding in front of a buffer is read as its character. -/
theorem complete_of_encoded (hb : isHigh b = true) {c : Char}
    (h : String.utf8EncodeChar c <+: b :: bs) :
    front (b :: bs) = .complete (String.utf8EncodeChar c).length ∧
      character ((b :: bs).take (String.utf8EncodeChar c).length) = c := by
  obtain ⟨rest, hrest⟩ := h
  obtain ⟨lead, bytes, hbytes⟩ :=
    List.exists_cons_of_ne_nil (String.utf8EncodeChar_ne_nil (c := c))
  have hlead : lead = b := by
    rw [hbytes] at hrest
    exact (List.cons.inj hrest).1
  have hc := le_toNat_of_encoded hb (hlead ▸ hbytes)
  rw [← hrest, List.take_left]
  exact ⟨(sequence_encoded hc).1.front rest, character_encoded hc⟩

/-- What is complete is the encoding of the character that is read. -/
theorem encoded_of_complete {n : Nat} (h : front (b :: bs) = .complete n) :
    String.utf8EncodeChar (character ((b :: bs).take n)) <+: b :: bs ∧
      (String.utf8EncodeChar (character ((b :: bs).take n))).length = n := by
  obtain ⟨taken, htaken, rfl, hsequence⟩ := sequence_of_front h
  rw [← List.prefix_iff_eq_take.mp htaken, hsequence.encoded]
  exact ⟨htaken, rfl⟩

theorem encoded_ahead_iff (hb : isHigh b = true) :
    front (b :: bs) = .truncated ↔
      ∃ c, b :: bs <+: String.utf8EncodeChar c ∧ b :: bs ≠ String.utf8EncodeChar c := by
  rw [front_truncated_iff]
  constructor
  · rintro ⟨taken, hsequence, hprefix, hne⟩
    obtain ⟨c, -, rfl⟩ := sequence_iff.mp hsequence
    exact ⟨c, hprefix, hne⟩
  · rintro ⟨c, ⟨rest, hrest⟩, hne⟩
    have hc := le_toNat_of_encoded hb hrest.symm
    exact ⟨_, (sequence_encoded hc).1, ⟨rest, hrest⟩, hne⟩

end Text.Utf8

variable {b : UInt8} {bs : List UInt8}

theorem nextToken_character_iff (hb : isHigh b = true) {k : Nat} {text : String} :
    nextToken (b :: bs) = some (.command k (.print text)) ↔
      ∃ c, String.utf8EncodeChar c <+: b :: bs ∧ (String.utf8EncodeChar c).length = k ∧
        String.singleton c = text := by
  rw [nextToken_of_high hb]
  constructor
  · intro h
    split at h
    · next n hf =>
        cases h
        obtain ⟨hfront, hlength⟩ := Utf8.encoded_of_complete hf
        exact ⟨_, hfront, hlength, rfl⟩
    · cases h
    · cases h
  · rintro ⟨c, hc, rfl, rfl⟩
    obtain ⟨hf, hread⟩ := Utf8.complete_of_encoded hb hc
    simp only [hf, hread]

theorem nextToken_waits_iff (hb : isHigh b = true) :
    nextToken (b :: bs) = none ↔
      ∃ c, b :: bs <+: String.utf8EncodeChar c ∧ b :: bs ≠ String.utf8EncodeChar c := by
  rw [← Utf8.encoded_ahead_iff hb, nextToken_of_high hb]
  cases Utf8.front (b :: bs) <;> simp

theorem nextToken_givenUp_iff (hb : isHigh b = true) :
    nextToken (b :: bs) = some (givenUp b) ↔
      ∀ c, ¬ String.utf8EncodeChar c <+: b :: bs ∧ ¬ b :: bs <+: String.utf8EncodeChar c := by
  have hfront : nextToken (b :: bs) = some (givenUp b) ↔
      ∃ n, Utf8.front (b :: bs) = .invalid n := by
    rw [nextToken_of_high hb]
    cases Utf8.front (b :: bs) <;> simp [givenUp, Token.command]
  rw [hfront]
  constructor
  · rintro ⟨n, hf⟩ c
    have hbehind : ¬ String.utf8EncodeChar c <+: b :: bs := by
      intro hc
      cases hf.symm.trans (Utf8.complete_of_encoded hb hc).1
    refine ⟨hbehind, fun hc => ?_⟩
    have hne : b :: bs ≠ String.utf8EncodeChar c := fun he => hbehind (he ▸ List.prefix_rfl)
    cases hf.symm.trans ((Utf8.encoded_ahead_iff hb).mpr ⟨c, hc, hne⟩)
  · intro h
    cases hf : Utf8.front (b :: bs) with
    | complete n => exact absurd (Utf8.encoded_of_complete hf).1 (h _).1
    | truncated =>
        obtain ⟨c, hc, -⟩ := (Utf8.encoded_ahead_iff hb).mp hf
        exact absurd hc (h c).2
    | invalid n => exact ⟨n, rfl⟩

def spelled (cs : List Char) : List Output :=
  cs.map fun c => .command (.print (String.singleton c))

theorem spelled_inj {cs ds : List Char} (h : spelled cs = spelled ds) : cs = ds := by
  have hinj : Function.Injective
      fun c : Char => Output.command (.print (String.singleton c)) := by
    intro c d he
    simpa using he
  exact (List.map_inj_right hinj).mp h

/-- Only what prints can be spelled out. -/
theorem Output.eq_print_of_letters {output : Output} {cs : List Char}
    (h : output.letters = spelled cs) :
    ∃ text : String, output = .command (.print text) ∧ text.toList = cs := by
  unfold Output.letters at h
  split at h
  · next text => exact ⟨text, rfl, spelled_inj h⟩
  · next output hother =>
      obtain ⟨c, rest, rfl, hc, -⟩ := List.map_eq_cons_iff.mp h.symm
      exact absurd hc.symm (hother _)

/-- What comes to characters printed one by one, spelled out, is their text in pieces. -/
theorem texts_of_spell {outputs : List Output} {cs : List Char}
    (h : Output.spell outputs = spelled cs) :
    ∃ texts : List String, outputs = texts.map (fun text => .command (.print text)) ∧
      String.join texts = String.ofList cs := by
  induction outputs generalizing cs with
  | nil =>
      obtain rfl := List.map_eq_nil_iff.mp h.symm
      exact ⟨[], rfl, by simp⟩
  | cons output outputs ih =>
      rw [Output.spell_cons, spelled, eq_comm, List.map_eq_append_iff] at h
      obtain ⟨first, rest, rfl, hfirst, hrest⟩ := h
      obtain ⟨texts, rfl, hjoin⟩ := ih hrest.symm
      obtain ⟨text, rfl, rfl⟩ := Output.eq_print_of_letters hfirst.symm
      exact ⟨text :: texts, rfl, by simp [hjoin]⟩

/-- A character that is neither a control character below the space nor delete. -/
def IsText (c : Char) : Prop := 0x20 ≤ c.toNat ∧ c.toNat ≠ 0x7f

theorem readTokens_encoded {c : Char} (h : IsText c) :
    readTokens (String.utf8EncodeChar c) =
      ([.command (.print (String.singleton c))], []) := by
  suffices hclaim : nextToken (String.utf8EncodeChar c) =
      some (.command (String.utf8EncodeChar c).length (.print (String.singleton c))) by
    rw [readTokens_of_some hclaim, Token.command, List.drop_length,
      readTokens_of_none nextToken_nil]
    rfl
  by_cases hc : c.toNat < 0x80
  · have hbyte : (UInt8.ofNat c.toNat).toNat = c.toNat := by
      rw [UInt8.toNat_ofNat']
      omega
    have hprintable : isPrintable (UInt8.ofNat c.toNat) = true := by
      simp only [isPrintable, Bool.and_eq_true, decide_eq_true_eq, UInt8.le_iff_toNat_le, hbyte]
      exact ⟨h.1, Nat.le_of_lt_succ (Nat.lt_of_le_of_ne (Nat.le_of_lt_succ hc) h.2)⟩
    have hrun : [UInt8.ofNat c.toNat].takeWhile isPrintable = [UInt8.ofNat c.toNat] := by
      rw [List.takeWhile_cons_of_pos hprintable, List.takeWhile_nil]
    rw [Utf8.encoded_ascii hc, nextToken_of_run (by rw [hrun]; exact List.cons_ne_nil _ _), hrun]
    simp [ascii, hbyte]
  · have hsequence := (Utf8.sequence_encoded (Nat.le_of_not_lt hc)).1
    have hcharacter := Utf8.character_encoded (Nat.le_of_not_lt hc)
    have hfront := hsequence.front []
    obtain ⟨b, bs, hbytes⟩ := hsequence.exists_lead
    rw [List.append_nil] at hfront
    rw [hbytes] at hsequence hcharacter hfront ⊢
    rw [nextToken_of_high hsequence.isHigh, hfront]
    simp only [List.take_length, hcharacter]

theorem readTokens_text {cs : List Char} (h : ∀ c ∈ cs, IsText c) :
    Output.spell (readTokens (cs.flatMap String.utf8EncodeChar)).1 = spelled cs ∧
      (readTokens (cs.flatMap String.utf8EncodeChar)).2 = [] := by
  induction cs with
  | nil => simp [readTokens_of_none nextToken_nil, spelled]
  | cons c cs ih =>
      obtain ⟨hc, hcs⟩ := List.forall_mem_cons.mp h
      obtain ⟨hout, hleft⟩ := readTokens_append (String.utf8EncodeChar c)
        (cs.flatMap String.utf8EncodeChar)
      obtain ⟨hrest, hnil⟩ := ih hcs
      rw [readTokens_encoded hc, List.nil_append] at hout hleft
      rw [List.flatMap_cons, hout, hleft, hrest]
      exact ⟨by simp [Output.spell, Output.letters, spelled], hnil⟩

theorem feed_text {s : ByteStream} {text : String} (hs : s.pending = [])
    (h : ∀ c ∈ text.toList, IsText c) :
    ∃ texts : List String,
      s.feed text.toUTF8.data.toList = ⟨texts.map fun text => .command (.print text), s, none⟩ ∧
        String.join texts = text := by
  obtain ⟨hspell, hleft⟩ := readTokens_text h
  obtain ⟨texts, houtputs, hjoin⟩ := texts_of_spell hspell
  refine ⟨texts, ?_, hjoin.trans String.ofList_toList⟩
  obtain ⟨pending, limit⟩ := s
  subst hs
  simp only [ByteStream.feed, Utf8.toUTF8_eq, List.nil_append, houtputs, hleft, List.length_nil,
    Nat.not_lt_zero, if_false]

/-- UTF-8 is read exactly. In front of a buffer that begins with a high byte, one character of
`k` bytes is read if its encoding are the first `k` bytes, and the buffer waits if it is a proper
beginning of an encoding; otherwise the byte is given up, with a warning and a replacement. So
the bytes of a text without control characters give that text, in pieces, and nothing else. -/
theorem utf8_read_exactly :
    (∀ (b : UInt8) (bs : List UInt8), 0x80 ≤ b →
      (∀ k text, nextToken (b :: bs) = some (.command k (.print text)) ↔
        ∃ c, String.utf8EncodeChar c <+: b :: bs ∧ (String.utf8EncodeChar c).length = k ∧
          String.singleton c = text) ∧
      (nextToken (b :: bs) = none ↔
        ∃ c, b :: bs <+: String.utf8EncodeChar c ∧ b :: bs ≠ String.utf8EncodeChar c) ∧
      (nextToken (b :: bs) = some (givenUp b) ↔
        ∀ c, ¬ String.utf8EncodeChar c <+: b :: bs ∧ ¬ b :: bs <+: String.utf8EncodeChar c)) ∧
    ∀ (s : ByteStream) (text : String), s.pending = [] →
      (∀ c ∈ text.toList, 0x20 ≤ c.toNat ∧ c.toNat ≠ 0x7f) →
      ∃ texts : List String,
        s.feed text.toUTF8.data.toList =
            ⟨texts.map fun text => .command (.print text), s, none⟩ ∧
          String.join texts = text := by
  refine ⟨fun b bs hb => ?_, fun s text hs h => feed_text hs h⟩
  have hhigh : isHigh b = true := decide_eq_true hb
  exact ⟨fun k text => nextToken_character_iff hhigh, nextToken_waits_iff hhigh,
    nextToken_givenUp_iff hhigh⟩

/-- A bullet that has not come in whole waits, and is read once it has. No encoding is a
surrogate, so the first byte of one is given up. -/
theorem bullet_read_exactly :
    nextToken [0xe2, 0x80] = none ∧
      nextToken [0xe2, 0x80, 0xa2, 0x41] = some (.command 3 (.print "\u2022")) ∧
      (∀ c, ¬ String.utf8EncodeChar c <+: [0xed, 0xa0, 0x80]) ∧
      ∃ texts : List String,
        ({} : ByteStream).feed "caf\u00e9 \u2022 \u0085".toUTF8.data.toList =
            ⟨texts.map fun text => .command (.print text), {}, none⟩ ∧
          String.join texts = "caf\u00e9 \u2022 \u0085" := by
  obtain ⟨hbuffers, htexts⟩ := utf8_read_exactly
  have hwaits := (hbuffers 0xe2 [0x80] (by decide)).2.1
  have hread := (hbuffers 0xe2 [0x80, 0xa2, 0x41] (by decide)).1 3 "\u2022"
  have hsurrogate := (hbuffers 0xed [0xa0, 0x80] (by decide)).2.2
  exact ⟨hwaits.mpr ⟨'\u2022', by decide⟩, hread.mpr ⟨'\u2022', by decide⟩,
    fun c => (hsurrogate.mp (by decide +kernel) c).1, htexts {} _ rfl (by simp)⟩

end TermReplay

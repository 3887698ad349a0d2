import TermReplay.Proofs.BrokenSequences

/-!
Where escape tokens end. None takes a byte that cannot be printed, and such a byte ends the
sequence that it interrupts. Designations and line sequences are the exception, they take the
third byte whatever it is.
-/

namespace TermReplay

open Text Recognizer

def takesAny (b : UInt8) : Bool := b == 0x28 || b == 0x29 || b == 0x23

/-- An opener that takes any byte, and one after it that it should have left. -/
def LosesBreak (bytes : List UInt8) : Prop :=
  ∃ opener b rest, bytes = opener :: b :: rest ∧ takesAny opener = true ∧ Breaks b

theorem toNat_ofNat {n : Nat} (h : n.isValidChar) : (Char.ofNat n).toNat = n := by
  rw [Char.ofNat, dif_pos h]
  rfl

theorem toNat_of_char {b : UInt8} {c : Char} (h : Char.ofNat b.toNat = c) :
    b.toNat = c.toNat := by
  have hvalid : b.toNat.isValidChar := Or.inl (Nat.lt_trans b.toNat_lt (by decide))
  rw [← h, toNat_ofNat hvalid]

/-- Takes the byte after the opener whatever it is, once it is there. -/
def TakesOne (recognize : Recognizer) : Prop :=
  recognize [] = none ∧ ∀ b rest, ∃ t, recognize (b :: rest) = some t ∧ t.length = 3

theorem takesOne_designation (slot : Slot) (opener : UInt8) :
    TakesOne (designation slot opener) := by
  refine ⟨rfl, fun b rest => ?_⟩
  simp only [designation]
  split <;> exact ⟨_, rfl, rfl⟩

theorem takesOne_lineSequence : TakesOne lineSequence := by
  refine ⟨rfl, fun b rest => ?_⟩
  simp only [lineSequence]
  split <;> exact ⟨_, rfl, rfl⟩

theorem TakesOne.claim {recognize : Recognizer} (hr : TakesOne recognize) {bs : List UInt8}
    {t : Token} (h : recognize bs = some t) : ∃ b rest, bs = b :: rest ∧ t.length = 3 := by
  cases bs with
  | nil =>
      rw [hr.1] at h
      cases h
  | cons b rest =>
      obtain ⟨t', ht', hlength⟩ := hr.2 b rest
      rw [ht'] at h
      cases h
      exact ⟨b, rest, rfl, hlength⟩

theorem TakesOne.waits {recognize : Recognizer} (hr : TakesOne recognize) {bs : List UInt8}
    (h : recognize bs = none) : bs = [] := by
  cases bs with
  | nil => rfl
  | cons b rest =>
      obtain ⟨t, ht, -⟩ := hr.2 b rest
      rw [ht] at h
      cases h

theorem isPrintable_of_char {b : UInt8} {c : Char} (h : Char.ofNat b.toNat = c)
    (hc : 0x20 ≤ c.toNat ∧ c.toNat ≤ 0x7e) : isPrintable b = true := by
  simp only [isPrintable, Bool.and_eq_true, decide_eq_true_eq, UInt8.le_iff_toNat_le,
    toNat_of_char h]
  exact hc

theorem takesAny_of_char {b : UInt8} {c : Char} (h : Char.ofNat b.toNat = c)
    (hc : c = '(' ∨ c = ')' ∨ c = '#') : takesAny b = true := by
  simp only [takesAny, Bool.or_eq_true, beq_iff_eq, ← UInt8.toNat_inj, toNat_of_char h]
  obtain rfl | rfl | rfl := hc <;> decide

/-- What an opener that takes any byte takes is printable, or should have been left. -/
theorem spares_or_losesBreak {opener : UInt8} {bs : List UInt8} {t : Token}
    (ho : takesAny opener = true)
    (h : ∃ b rest, bs = b :: rest ∧ t.length = 3) :
    t.Spares 1 (opener :: bs) ∨ LosesBreak (opener :: bs) := by
  obtain ⟨b, rest, rfl, hlength⟩ := h
  have hopener : isPrintable opener = true := by
    simp only [takesAny, Bool.or_eq_true, beq_iff_eq] at ho
    obtain (rfl | rfl) | rfl := ho <;> rfl
  cases hb : isPrintable b with
  | true => exact .inl ⟨[opener, b], rest, rfl, hlength, by simp [hopener, hb]⟩
  | false => exact .inr ⟨opener, b, rest, rfl, ho, breaks_iff.mpr hb⟩

theorem isPrintable_of_escapeCommand :
    ∀ b : UInt8, (escapeCommand? b).isSome → isPrintable b = true :=
  TokenKind.forall_byte (by decide +kernel)

theorem spares_escape {bytes : List UInt8} {t : Token} (h : escape (0x1b :: bytes) = some t) :
    t.Spares 1 bytes ∨ LosesBreak bytes := by
  cases bytes with
  | nil => cases h
  | cons b bs =>
      have htwo : isPrintable b = true → t.length = 2 → t.Spares 1 (b :: bs) :=
        fun hb ht => ⟨[b], bs, rfl, ht, by simpa using hb⟩
      simp only [escape] at h
      split at h
      · cases h
      · cases h
      · next hb =>
          cases h
          exact .inl (htwo (isPrintable_of_char hb (by decide)) rfl)
      · next hb => exact .inl ((spares_singleShift h).cons (isPrintable_of_char hb (by decide)))
      · next hb => exact .inl ((spares_singleShift h).cons (isPrintable_of_char hb (by decide)))
      · next hb =>
          exact spares_or_losesBreak (takesAny_of_char hb (by decide))
            ((takesOne_designation _ _).claim h)
      · next hb =>
          exact spares_or_losesBreak (takesAny_of_char hb (by decide))
            ((takesOne_designation _ _).claim h)
      · next hb =>
          exact spares_or_losesBreak (takesAny_of_char hb (by decide))
            (takesOne_lineSequence.claim h)
      · split at h
        · next c hc =>
            cases h
            exact .inl (htwo (isPrintable_of_escapeCommand b (by rw [hc]; rfl)) rfl)
        · split at h
          · exact .inl (spares_intermediateSequence h)
          · split at h
            · next hb =>
                cases h
                exact .inl (htwo hb rfl)
            · cases h
              exact .inl (.of_length rfl (b :: bs))

/-- An escape byte in front of a byte that breaks is dropped alone. -/
theorem escape_stray {b : UInt8} (hb : isPrintable b = false) (rest : List UInt8) :
    escape (0x1b :: b :: rest) = some (.warning 1 ("stray ESC before " ++ namedByte b)) := by
  have hchar : ∀ c : Char, 0x20 ≤ c.toNat ∧ c.toNat ≤ 0x7e → Char.ofNat b.toNat ≠ c := by
    intro c hc he
    rw [isPrintable_of_char he hc] at hb
    cases hb
  have hcommand : escapeCommand? b = none := by
    cases hc : escapeCommand? b with
    | none => rfl
    | some c =>
        rw [isPrintable_of_escapeCommand b (by rw [hc]; rfl)] at hb
        cases hb
  have hintermediate : isIntermediate b = false :=
    not_of_not_printable isPrintable_of_isIntermediate hb
  simp only [escape]
  split
  case h_9 => simp [hcommand, hintermediate, hb]
  all_goals exact absurd ‹_› (hchar _ (by decide))

/-- Right after an opener that takes any byte, the break would be lost. -/
theorem givesUp_escape {run : List UInt8} {b : UInt8} (rest : List UInt8)
    (h : escape (0x1b :: run) = none) (hkind : TokenKind.ofEscape run = .escape)
    (hrun : ∀ c ∈ run, isPrintable c = true) (hb : isPrintable b = false)
    (hkeeps : ¬LosesBreak (run ++ b :: rest)) :
    ∃ message, escape (0x1b :: (run ++ b :: rest)) = some (.warning (1 + run.length) message) := by
  cases run with
  | nil => exact ⟨_, escape_stray hb rest⟩
  | cons c run =>
      have hloses : takesAny c = true → run ≠ [] := by
        rintro hc rfl
        exact hkeeps ⟨c, b, rest, rfl, hc, breaks_iff.mpr hb⟩
      have hc := hrun c (List.mem_cons_self ..)
      have htail : ∀ d ∈ run, isPrintable d = true := fun d hd => hrun d (List.mem_cons_of_mem _ hd)
      have hlength : 1 + (c :: run).length = 2 + run.length := by
        rw [List.length_cons]
        omega
      rw [hlength]
      simp only [List.cons_append, escape] at h ⊢
      split at h
      · next he =>
          obtain rfl : c = 0x5b := UInt8.toNat_inj.mp (toNat_of_char he)
          cases hkind
      · next he =>
          obtain rfl : c = 0x5d := UInt8.toNat_inj.mp (toNat_of_char he)
          cases hkind
      · cases h
      · exact givesUp_singleShift .g2 rest h htail hb
      · exact givesUp_singleShift .g3 rest h htail hb
      · next he =>
          exact absurd ((takesOne_designation _ _).waits h)
            (hloses (takesAny_of_char he (by decide)))
      · next he =>
          exact absurd ((takesOne_designation _ _).waits h)
            (hloses (takesAny_of_char he (by decide)))
      · next he =>
          exact absurd (takesOne_lineSequence.waits h) (hloses (takesAny_of_char he (by decide)))
      · split at h
        · cases h
        · split at h
          · next hi =>
              have hup := givesUp_intermediateSequence rest h hrun hb
              rw [hlength, List.cons_append] at hup
              rwa [if_pos hi]
          · cases h

theorem takesOne_escape {opener : UInt8} (ho : takesAny opener = true) :
    TakesOne fun bs => escape (0x1b :: opener :: bs) := by
  simp only [takesAny, Bool.or_eq_true, beq_iff_eq] at ho
  obtain (rfl | rfl) | rfl := ho
  · exact takesOne_designation .g0 0x28
  · exact takesOne_designation .g1 0x29
  · exact takesOne_lineSequence

theorem nextToken_escape (bytes : List UInt8) :
    nextToken (0x1b :: bytes) = (TokenKind.ofEscape bytes).recognizer (0x1b :: bytes) :=
  nextToken_eq (0x1b :: bytes)

/-- What begins with an escape byte and is no system command. -/
theorem ofEscape_cases {bytes : List UInt8} (hs : bytes.head? ≠ some 0x5d) :
    (∃ body, bytes = 0x5b :: body ∧ TokenKind.ofEscape bytes = .controlSequence) ∨
      TokenKind.ofEscape bytes = .escape := by
  cases bytes with
  | nil => exact .inr rfl
  | cons b bs =>
      have hne : b ≠ 0x5d := fun h => hs (congrArg some h)
      by_cases hb : b = 0x5b
      · subst hb
        exact .inl ⟨bs, rfl, rfl⟩
      · exact .inr (by simp [TokenKind.ofEscape, hb, hne])

theorem ofEscape_of_not_printable {b : UInt8} (hb : isPrintable b = false) (rest : List UInt8) :
    TokenKind.ofEscape (b :: rest) = .escape := by
  have hne : ∀ c, isPrintable c = true → b ≠ c := fun c hc he => by
    rw [he, hc] at hb
    cases hb
  simp [TokenKind.ofEscape, hne 0x5b rfl, hne 0x5d rfl]

theorem spares_nextToken {bytes : List UInt8} {t : Token} (hs : bytes.head? ≠ some 0x5d)
    (h : nextToken (0x1b :: bytes) = some t) : t.Spares 1 bytes ∨ LosesBreak bytes := by
  rw [nextToken_escape] at h
  obtain ⟨body, rfl, hkind⟩ | hkind := ofEscape_cases hs <;> rw [hkind] at h
  · exact .inl ((spares_controlSequence h).cons rfl)
  · exact spares_escape h

theorem givesUp_nextToken {run : List UInt8} {b : UInt8} (rest : List UInt8)
    (hs : run.head? ≠ some 0x5d) (h : nextToken (0x1b :: run) = none)
    (hrun : ∀ c ∈ run, isPrintable c = true) (hb : isPrintable b = false)
    (hkeeps : ¬LosesBreak (run ++ b :: rest)) :
    ∃ message, nextToken (0x1b :: (run ++ b :: rest)) =
      some (.warning (1 + run.length) message) := by
  rw [nextToken_escape] at h ⊢
  obtain ⟨body, rfl, hkind⟩ | hkind := ofEscape_cases hs
  · rw [hkind] at h
    obtain ⟨message, hup⟩ := givesUp_controlSequence rest h
      (fun c hc => hrun c (List.mem_cons_of_mem _ hc)) hb
    have hlength : 1 + (0x5b :: body).length = 2 + body.length := by
      rw [List.length_cons]
      omega
    exact ⟨message, hlength ▸ hup⟩
  · have hkind' : TokenKind.ofEscape (run ++ b :: rest) = .escape := by
      cases run with
      | nil => exact ofEscape_of_not_printable hb rest
      | cons c run => exact hkind
    rw [hkind] at h
    rw [hkind']
    exact givesUp_escape rest h hkind hrun hb hkeeps

theorem nextToken_losesBreak {bytes : List UInt8} (h : LosesBreak bytes) :
    ∃ t, nextToken (0x1b :: bytes) = some t ∧ t.length = 3 := by
  obtain ⟨opener, b, rest, rfl, ho, -⟩ := h
  have hkind : TokenKind.ofEscape (opener :: b :: rest) = .escape := by
    simp only [takesAny, Bool.or_eq_true, beq_iff_eq] at ho
    obtain (rfl | rfl) | rfl := ho <;> rfl
  rw [nextToken_escape, hkind]
  exact (takesOne_escape ho).2 b rest

theorem nextToken_escape_append {bytes : List UInt8} {t : Token}
    (h : nextToken (0x1b :: bytes) = some t) (more : List UInt8) :
    nextToken (0x1b :: (bytes ++ more)) = some t := by
  obtain ⟨kind, hk⟩ := nextToken_eq_some_iff.mp h
  have hkind : kind ≠ .asciiRun := by
    rintro rfl
    cases hk
  exact nextToken_eq_some_iff.mpr ⟨kind, (TokenKind.settles hkind hk).2 more⟩

/-- An escape sequence that waits for more has not met a byte that breaks it. -/
theorem printable_of_waiting {bytes : List UInt8} (hs : bytes.head? ≠ some 0x5d)
    (h : nextToken (0x1b :: bytes) = none) : ∀ c ∈ bytes, isPrintable c = true := by
  have hkeeps : ¬LosesBreak bytes := fun hl => by
    obtain ⟨t, ht, -⟩ := nextToken_losesBreak hl
    rw [h] at ht
    cases ht
  have hsplit := List.takeWhile_append_dropWhile (p := isPrintable) (l := bytes)
  cases hd : bytes.dropWhile isPrintable with
  | nil =>
      rw [hd, List.append_nil] at hsplit
      exact hsplit ▸ takeWhile_printable id bytes
  | cons b rest =>
      have hb : isPrintable b = false := by
        simpa [hd] using List.head_dropWhile_not isPrintable (l := bytes) (by simp [hd])
      rw [hd] at hsplit
      cases ht : nextToken (0x1b :: bytes.takeWhile isPrintable) with
      | some t =>
          have := nextToken_escape_append ht (b :: rest)
          rw [hsplit, h] at this
          cases this
      | none =>
          have hs' : (bytes.takeWhile isPrintable).head? ≠ some 0x5d := by
            intro he
            apply hs
            rw [← hsplit, List.head?_append, he]
            rfl
          obtain ⟨message, hup⟩ := givesUp_nextToken rest hs' ht
            (takeWhile_printable id bytes) hb (hsplit.symm ▸ hkeeps)
          rw [hsplit, h] at hup
          cases hup

/-- An escape token that is no system command takes none of the bytes that break it, but for the
third byte of a designation or of a line sequence. And what waits for more in front of such a
byte is given up as it stands, so the byte is read on its own. -/
theorem escape_tokens_end_at_breaks {bytes : List UInt8} (hs : bytes.head? ≠ some 0x5d) :
    (∀ t, nextToken (0x1b :: bytes) = some t →
      ((∃ b ∈ bytes.take (t.length - 1), Breaks b) ↔ LosesBreak bytes)) ∧
    (∀ b rest, nextToken (0x1b :: bytes) = none → Breaks b → ¬LosesBreak (bytes ++ b :: rest) →
      ∃ message, nextToken (0x1b :: (bytes ++ b :: rest)) =
        some (.warning (1 + bytes.length) message)) := by
  refine ⟨fun t ht => ⟨?_, ?_⟩, fun b rest h hb hkeeps => ?_⟩
  · rintro ⟨b, hmem, hb⟩
    obtain ⟨taken, rest, rfl, hlength, hall⟩ | hl := spares_nextToken hs ht
    · rw [hlength, Nat.add_sub_cancel_left, List.take_left] at hmem
      rw [breaks_iff, hall b hmem] at hb
      cases hb
    · exact hl
  · intro hl
    obtain ⟨t', ht', hlength⟩ := nextToken_losesBreak hl
    obtain rfl : t' = t := Option.some.inj (ht'.symm.trans ht)
    obtain ⟨opener, b, rest, rfl, -, hb⟩ := hl
    exact ⟨b, by simp [hlength], hb⟩
  · exact givesUp_nextToken rest hs h (printable_of_waiting hs h) (breaks_iff.mp hb) hkeeps

/-- A line feed in the middle of a colour is read on its own. -/
theorem colour_ends_at_line_feed :
    ∃ message, nextToken [0x1b, 0x5b, 0x33, 0x0a] = some (.warning 3 message) :=
  (escape_tokens_end_at_breaks (show [0x5b, 0x33].head? ≠ some 0x5d by decide)).2 0x0a [] rfl
    (.inl (by decide)) (by rintro ⟨_, _, _, he, ho, -⟩; cases he; cases ho)

/-- A line feed in the middle of a designation is lost. -/
theorem designation_takes_line_feed :
    ∃ t, nextToken [0x1b, 0x28, 0x0a] = some t ∧
      ∃ b ∈ [0x28, 0x0a].take (t.length - 1), Breaks b :=
  ⟨_, rfl, 0x0a, by decide, .inl (by decide)⟩

end TermReplay

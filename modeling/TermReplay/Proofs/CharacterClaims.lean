import TermReplay.Control.Recognizer

/-!
Claims that their own bytes settle: a claim covers at least one byte of the buffer and no byte
beyond it, and does not depend on what comes after the buffer. This is the notion, and the
claims of control codes and of characters that take several bytes.
-/

namespace TermReplay

open Text Recognizer

theorem run_stops {α : Type} {p : α → Bool} {l : List α} (h : l.dropWhile p ≠ []) (m : List α) :
    (l ++ m).takeWhile p = l.takeWhile p ∧ (l ++ m).dropWhile p = l.dropWhile p ++ m := by
  induction l with
  | nil => exact absurd rfl h
  | cons a l ih =>
      cases ha : p a with
      | false => simp [List.takeWhile, List.dropWhile, ha]
      | true =>
          rw [List.dropWhile_cons_of_pos ha] at h
          obtain ⟨ht, hd⟩ := ih h
          simp [ha, ht, hd]

theorem length_takeWhile_add {α : Type} (p : α → Bool) (l : List α) :
    (l.takeWhile p).length + (l.dropWhile p).length = l.length := by
  rw [← List.length_append, List.takeWhile_append_dropWhile]

theorem follow_complete {ranges : List Utf8.ByteRange} {bytes : List UInt8} {fits n : Nat}
    (h : Utf8.follow ranges bytes fits = .complete n) :
    n = fits + ranges.length ∧ ranges.length ≤ bytes.length := by
  induction ranges generalizing bytes fits with
  | nil =>
      cases h
      exact ⟨rfl, Nat.zero_le _⟩
  | cons r ranges ih =>
      cases bytes with
      | nil => cases h
      | cons b bytes =>
          simp only [Utf8.follow] at h
          split at h
          · obtain ⟨rfl, hl⟩ := ih h
            simp only [List.length_cons]
            omega
          · cases h

theorem follow_append {ranges : List Utf8.ByteRange} {bytes : List UInt8} {fits : Nat}
    (h : Utf8.follow ranges bytes fits ≠ .truncated) (more : List UInt8) :
    Utf8.follow ranges (bytes ++ more) fits = Utf8.follow ranges bytes fits := by
  induction ranges generalizing bytes fits with
  | nil => rfl
  | cons r ranges ih =>
      cases bytes with
      | nil => exact absurd rfl h
      | cons b bytes =>
          simp only [Utf8.follow, List.cons_append] at h ⊢
          split
          · next hr => exact ih (by rwa [if_pos hr] at h)
          · rfl

theorem front_append {b : UInt8} {bs : List UInt8} (h : Utf8.front (b :: bs) ≠ .truncated)
    (more : List UInt8) : Utf8.front (b :: bs ++ more) = Utf8.front (b :: bs) := by
  simp only [Utf8.front, List.cons_append] at h ⊢
  split
  · rfl
  · next hl =>
      rw [hl] at h
      exact follow_append h more

theorem front_complete {b : UInt8} {bs : List UInt8} {n : Nat}
    (h : Utf8.front (b :: bs) = .complete n) : 0 < n ∧ n ≤ (b :: bs).length := by
  simp only [Utf8.front] at h
  split at h
  · cases h
  · obtain ⟨rfl, hl⟩ := follow_complete h
    simp only [List.length_cons]
    omega

/-- What a recognizer claims after `before` bytes that are part of the token covers a byte,
stays inside what was shown, and is claimed again when more is shown. -/
def Settles (before : Nat) (recognize : Recognizer) : Prop :=
  ∀ {buffer : List UInt8} {t : Token}, recognize buffer = some t →
    (0 < t.length ∧ t.length ≤ before + buffer.length) ∧
      ∀ more, recognize (buffer ++ more) = some t

theorem settles_control : Settles 0 control := by
  intro buffer t h
  cases buffer with
  | nil => cases h
  | cons b bs =>
      refine ⟨?_, fun _ => h⟩
      obtain ⟨c, -, rfl⟩ := Option.map_eq_some_iff.mp h
      simp [Token.command]

theorem settles_ignoredControl : Settles 0 ignoredControl := by
  intro buffer t h
  cases buffer with
  | nil => cases h
  | cons b bs =>
      refine ⟨?_, fun _ => h⟩
      simp only [ignoredControl] at h
      split at h <;> cases h
      simp [Token.silent]

theorem settles_multiByte : Settles 0 multiByte := by
  intro buffer t h
  cases buffer with
  | nil => cases h
  | cons b bs =>
      simp only [multiByte] at h
      split at h
      · next hb =>
          split at h <;> cases h
          next n hf =>
            have hn := front_complete hf
            refine ⟨by simpa [Token.command] using hn, fun more => ?_⟩
            have ha : Utf8.front (b :: bs ++ more) = Utf8.front (b :: bs) :=
              front_append (by simp [hf]) more
            rw [List.cons_append] at ha ⊢
            simp only [multiByte, hb, if_true, ha, hf]
            rw [← List.cons_append, List.take_append_of_le_length hn.2]
      · cases h

theorem settles_invalidByte : Settles 0 invalidByte := by
  intro buffer t h
  cases buffer with
  | nil => cases h
  | cons b bs =>
      simp only [invalidByte] at h
      split at h
      · next hb =>
          split at h <;> cases h
          next n hf =>
            refine ⟨by simp, fun more => ?_⟩
            have ha : Utf8.front (b :: bs ++ more) = Utf8.front (b :: bs) :=
              front_append (by simp [hf]) more
            rw [List.cons_append] at ha ⊢
            simp only [invalidByte, hb, if_true, ha, hf]
      · cases h

end TermReplay

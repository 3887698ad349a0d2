import TermReplay.Proofs.SequenceClaims
import TermReplay.Proofs.TokenKind

/-!
Claims are final, except that a run of printable characters goes on as long as the buffer shows
it. There is at most one claim for a buffer, and it is the token at the front.
-/

namespace TermReplay

open Text Recognizer

namespace TokenKind

/-- Every kind of token but the run of printable characters is settled by its own bytes. -/
theorem settles {kind : TokenKind} (h : kind ≠ .asciiRun) : Settles 0 kind.recognizer := by
  cases kind with
  | control => exact settles_control
  | ignoredControl => exact settles_ignoredControl
  | asciiRun => exact absurd rfl h
  | multiByte => exact settles_multiByte
  | invalidByte => exact settles_invalidByte
  | controlSequence => exact settles_controlSequence
  | escape => exact settles_escape
  | systemCommand => exact settles_systemCommand

/-- A run of printable characters is claimed as a whole. -/
theorem run_of_claim {buffer : List UInt8} {t : Token}
    (h : TokenKind.asciiRun.recognizer buffer = some t) :
    buffer.takeWhile isPrintable ≠ [] ∧
      t = .command (buffer.takeWhile isPrintable).length
        (.print (ascii (buffer.takeWhile isPrintable))) := by
  simp only [recognizer, Recognizer.asciiRun] at h
  split at h
  · cases h
  · next hr =>
      cases h
      exact ⟨mt List.isEmpty_iff.mpr hr, rfl⟩

/-- A claim takes at least one byte, and only bytes that are there. -/
theorem claim_length {kind : TokenKind} {buffer : List UInt8} {t : Token}
    (h : kind.recognizer buffer = some t) : 0 < t.length ∧ t.length ≤ buffer.length := by
  by_cases hk : kind = .asciiRun
  · subst hk
    obtain ⟨hrun, rfl⟩ := run_of_claim h
    have hpos := List.length_pos_iff.mpr hrun
    have hl := length_takeWhile_add isPrintable buffer
    simp only [Token.command]
    omega
  · simpa using (settles hk h).1

end TokenKind

/-- No recognizers compete, so the choice among the claims is the one claim there can be. -/
theorem nextToken_eq (buffer : List UInt8) :
    nextToken buffer = (TokenKind.ofBuffer buffer).recognizer buffer := by
  have others : ∀ kind, TokenKind.ofBuffer buffer ≠ kind → kind.recognizer buffer = none :=
    fun _ => TokenKind.claim_eq_none
  have only : ∀ claim, claim = (TokenKind.ofBuffer buffer).recognizer buffer →
      Token.better none claim = claim := by
    intro claim hc
    cases claim with
    | none => rfl
    | some t => simp [Token.better, (TokenKind.claim_length hc.symm).1]
  simp only [nextToken, TokenKind.recognizers_eq, TokenKind.all, List.map, List.foldl]
  cases hk : TokenKind.ofBuffer buffer <;>
    simp_all [Token.better]

theorem nextToken_eq_some_iff {buffer : List UInt8} {t : Token} :
    nextToken buffer = some t ↔ ∃ kind : TokenKind, kind.recognizer buffer = some t := by
  rw [nextToken_eq]
  constructor
  · exact fun h => ⟨_, h⟩
  · rintro ⟨kind, h⟩
    rwa [TokenKind.ofBuffer_of_claim h]

theorem nextToken_length_le {buffer : List UInt8} {t : Token} (h : nextToken buffer = some t) :
    t.length ≤ buffer.length := by
  obtain ⟨kind, hk⟩ := nextToken_eq_some_iff.mp h
  exact (TokenKind.claim_length hk).2

end TermReplay

import TermReplay.Control.Recognizer

/-!
The token at the front of a byte buffer. Of all claims on it the shortest is taken, the first in
the table among equals. That a claim is never empty, and that an empty buffer has none, is all
that the loop over a buffer needs.
-/

namespace TermReplay

/-- All recognizers; among equally short claims the first in this order is taken. -/
def recognizers : List Recognizer :=
  [.control, .ignoredControl, .asciiRun, .multiByte, .invalidByte, .controlSequence, .escape,
    .systemCommand]

/-- Takes `claim` if it is not empty and shorter than the best one so far. -/
def Token.better (best : Option Token) (claim : Option Token) : Option Token :=
  match claim with
  | none => best
  | some token =>
    if 0 < token.length && best.all (token.length < ·.length) then some token else best

/-- The token at the front of a buffer, or `none` while it is not complete. -/
def nextToken (buffer : List UInt8) : Option Token :=
  recognizers.foldl (fun best recognize => Token.better best (recognize buffer)) none

theorem Token.better_length_pos {best claim : Option Token}
    (hb : ∀ t, best = some t → 0 < t.length) :
    ∀ t, Token.better best claim = some t → 0 < t.length := by
  intro t h
  unfold Token.better at h
  split at h
  · exact hb t h
  · split at h
    · rename_i hc
      simp only [Bool.and_eq_true, decide_eq_true_eq] at hc
      cases h
      exact hc.1
    · exact hb t h

theorem nextToken_length_pos {buffer : List UInt8} {t : Token}
    (h : nextToken buffer = some t) : 0 < t.length := by
  have key : ∀ (rs : List Recognizer) (best : Option Token),
      (∀ t, best = some t → 0 < t.length) →
      ∀ t, rs.foldl (fun best recognize => Token.better best (recognize buffer)) best = some t →
        0 < t.length := by
    intro rs
    induction rs with
    | nil => exact fun _ hb => hb
    | cons r rs ih => exact fun _ hb => ih _ (Token.better_length_pos hb)
  exact key recognizers none (fun _ h => nomatch h) t h

theorem nextToken_nil : nextToken [] = none := by decide

/-- What is left after a token is shorter than what the token was read from. -/
theorem length_drop_nextToken {buffer : List UInt8} {t : Token}
    (h : nextToken buffer = some t) : (buffer.drop t.length).length < buffer.length := by
  have hpos := nextToken_length_pos h
  cases buffer with
  | nil => simp [nextToken_nil] at h
  | cons b bs => simp only [List.length_drop, List.length_cons]; omega

end TermReplay

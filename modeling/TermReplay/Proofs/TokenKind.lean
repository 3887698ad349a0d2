import TermReplay.Control.Token

/-!
Which recognizer can claim a token. The first byte of a buffer leaves one recognizer that may
speak for it; for escapes and high bytes the bytes after it decide. So recognizers never compete,
and the choice of the shortest claim is the answer of that one recognizer.
-/

namespace TermReplay

open Text Recognizer

inductive TokenKind
  | control | ignoredControl | asciiRun | multiByte | invalidByte
  | controlSequence | escape | systemCommand
  deriving DecidableEq, Repr

namespace TokenKind

def recognizer : TokenKind → Recognizer
  | .control => Recognizer.control
  | .ignoredControl => Recognizer.ignoredControl
  | .asciiRun => Recognizer.asciiRun
  | .multiByte => Recognizer.multiByte
  | .invalidByte => Recognizer.invalidByte
  | .controlSequence => Recognizer.controlSequence
  | .escape => Recognizer.escape
  | .systemCommand => Recognizer.systemCommand

def all : List TokenKind :=
  [.control, .ignoredControl, .asciiRun, .multiByte, .invalidByte, .controlSequence, .escape,
    .systemCommand]

theorem recognizers_eq : recognizers = all.map recognizer := rfl

/-- The byte after an escape tells the long sequences from all others. -/
def ofEscape : List UInt8 → TokenKind
  | [] => .escape
  | b :: _ => if b = 0x5b then .controlSequence else if b = 0x5d then .systemCommand else .escape

/-- The only kind of token that can stand in front of a buffer. -/
def ofBuffer : List UInt8 → TokenKind
  | [] => .escape
  | b :: bs =>
    if (controlCommand? b).isSome then .control
    else if isIgnored b then .ignoredControl
    else if isPrintable b then .asciiRun
    else if isHigh b then
      match Utf8.front (b :: bs) with
      | .complete _ => .multiByte
      | _ => .invalidByte
    else ofEscape bs

/-- A property of bytes holds if it holds of the bytes one by one. -/
theorem forall_byte {P : UInt8 → Prop} (h : ∀ n : Fin 256, P (UInt8.ofNat n.val))
    (b : UInt8) : P b := by
  have hb : UInt8.ofNat b.toNat = b := UInt8.ofNat_toNat
  exact hb ▸ h ⟨b.toNat, b.toNat_lt⟩

theorem not_control_of_ignored :
    ∀ b : UInt8, isIgnored b = true → controlCommand? b = none :=
  forall_byte (by decide +kernel)

theorem not_control_of_printable :
    ∀ b : UInt8, isPrintable b = true → controlCommand? b = none ∧ isIgnored b = false :=
  forall_byte (by decide +kernel)

theorem not_control_of_high :
    ∀ b : UInt8, isHigh b = true →
      controlCommand? b = none ∧ isIgnored b = false ∧ isPrintable b = false :=
  forall_byte (by decide +kernel)

theorem ofBuffer_escape (bs : List UInt8) : ofBuffer (0x1b :: bs) = ofEscape bs := rfl

theorem ofBuffer_of_high {b : UInt8} (h : isHigh b = true) (bs : List UInt8) :
    ofBuffer (b :: bs) =
      match Utf8.front (b :: bs) with
      | .complete _ => .multiByte
      | _ => .invalidByte := by
  obtain ⟨hc, hi, hp⟩ := not_control_of_high b h
  simp [ofBuffer, hc, hi, hp, h]

/-- A recognizer that claims a token is the one that the buffer leaves. -/
theorem ofBuffer_of_claim {kind : TokenKind} {buffer : List UInt8} {t : Token}
    (h : kind.recognizer buffer = some t) : ofBuffer buffer = kind := by
  cases kind with
  | control =>
      cases buffer with
      | nil => cases h
      | cons b bs =>
          obtain ⟨c, hc, -⟩ := Option.map_eq_some_iff.mp h
          simp [ofBuffer, hc]
  | ignoredControl =>
      cases buffer with
      | nil => cases h
      | cons b bs =>
          simp only [recognizer, Recognizer.ignoredControl] at h
          split at h
          · next hi => simp [ofBuffer, not_control_of_ignored b hi, hi]
          · cases h
  | asciiRun =>
      cases buffer with
      | nil => cases h
      | cons b bs =>
          by_cases hp : isPrintable b = true
          · obtain ⟨hc, hi⟩ := not_control_of_printable b hp
            simp [ofBuffer, hc, hi, hp]
          · simp [recognizer, Recognizer.asciiRun, List.takeWhile, hp] at h
  | multiByte =>
      cases buffer with
      | nil => cases h
      | cons b bs =>
          simp only [recognizer, Recognizer.multiByte] at h
          split at h
          · next hb =>
              split at h
              · next hf => rw [ofBuffer_of_high hb, hf]
              · cases h
          · cases h
  | invalidByte =>
      cases buffer with
      | nil => cases h
      | cons b bs =>
          simp only [recognizer, Recognizer.invalidByte] at h
          split at h
          · next hb =>
              split at h
              · next hf => rw [ofBuffer_of_high hb, hf]
              · cases h
          · cases h
  | controlSequence =>
      simp only [recognizer, Recognizer.controlSequence] at h
      split at h
      · rfl
      · cases h
  | escape =>
      simp only [recognizer, Recognizer.escape] at h
      split at h
      · next b bs =>
          by_cases hb : b = 0x5b
          · subst hb; cases h
          · by_cases hs : b = 0x5d
            · subst hs; cases h
            · simp [ofBuffer_escape, ofEscape, hb, hs]
      · cases h
  | systemCommand =>
      simp only [recognizer, Recognizer.systemCommand] at h
      split at h
      · rfl
      · cases h

theorem claim_eq_none {kind : TokenKind} {buffer : List UInt8} (h : ofBuffer buffer ≠ kind) :
    kind.recognizer buffer = none := by
  cases hc : kind.recognizer buffer with
  | none => rfl
  | some t => exact absurd (ofBuffer_of_claim hc) h

end TokenKind

end TermReplay

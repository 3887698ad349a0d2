import TermReplay.Proofs.CharacterClaims

/-!
Claims of control sequences, system commands and the other escape sequences. Each ends with a
byte of its own, so what comes later does not matter.
-/

namespace TermReplay

open Text Recognizer

theorem cutMarker_append {body : List UInt8} (h : body ≠ []) (more : List UInt8) :
    cutMarker (body ++ more) = ((cutMarker body).1, (cutMarker body).2 ++ more) := by
  cases body with
  | nil => exact absurd rfl h
  | cons b bs =>
      simp only [cutMarker, List.cons_append]
      split <;> rfl

theorem length_cutMarker (body : List UInt8) :
    (cutMarker body).1.toList.length + (cutMarker body).2.length = body.length := by
  cases body with
  | nil => rfl
  | cons b bs =>
      simp only [cutMarker]
      split
      · exact Nat.add_comm 1 _
      · exact Nat.zero_add _

/-- Once the final byte is there, neither run of bytes before it reaches the end of the buffer. -/
theorem settles_controlSequence : Settles 0 controlSequence := by
  intro buffer t h
  simp only [controlSequence] at h
  split at h
  · next body =>
      split at h
      · cases h
      · next final rest hf =>
          have hparams : (cutMarker body).2.dropWhile isParam ≠ [] := by
            intro he
            simp [he] at hf
          have hbody : body ≠ [] := by
            intro he
            simp [he, cutMarker] at hf
          refine ⟨?_, fun more => ?_⟩
          · have hm := length_cutMarker body
            have hp := length_takeWhile_add isParam (cutMarker body).2
            have hi := length_takeWhile_add isIntermediate
              ((cutMarker body).2.dropWhile isParam)
            simp only [hf, List.length_cons] at hi
            split at h <;> cases h <;>
              simp only [Token.warning, List.length_cons, List.length_append] <;> omega
          · obtain ⟨htp, hdp⟩ := run_stops hparams more
            obtain ⟨hti, hdi⟩ := run_stops (p := isIntermediate)
              (l := (cutMarker body).2.dropWhile isParam) (by simp [hf]) more
            simp only [List.cons_append, controlSequence, cutMarker_append hbody, htp, hdp, hti,
              hdi, hf]
            exact h
  · cases h

theorem terminator_append {rest : List UInt8} {ending : Nat}
    (h : terminator? rest = some ending) (more : List UInt8) :
    terminator? (rest ++ more) = some ending := by
  unfold terminator? at h
  split at h
  · cases h
  · next next =>
      cases next with
      | nil => cases h
      | cons b bs => exact h
  · next b bs hb =>
      cases h
      unfold terminator?
      split
      · next he => cases he
      · next he =>
          cases he
          exact (hb rfl).elim
      · rfl

theorem terminator_le {rest : List UInt8} {ending : Nat}
    (h : terminator? rest = some ending) : ending ≤ rest.length := by
  unfold terminator? at h
  split at h
  · cases h
  · next next =>
      cases next with
      | nil => cases h
      | cons b bs =>
          simp only [List.head?_cons, Option.map_some, Option.some.injEq] at h
          split at h <;> simp only [List.length_cons] <;> omega
  · cases h
    simp

theorem settles_systemCommand : Settles 0 systemCommand := by
  intro buffer t h
  simp only [systemCommand] at h
  split at h
  · next bytes =>
      obtain ⟨ending, he, rfl⟩ := Option.map_eq_some_iff.mp h
      refine ⟨?_, fun more => ?_⟩
      · have hl := length_takeWhile_add isBodyByte bytes
        have ht := terminator_le he
        simp only [List.length_cons]
        omega
      · have hne : bytes.dropWhile isBodyByte ≠ [] := by
          intro hn
          simp [hn, terminator?] at he
        obtain ⟨ht, hd⟩ := run_stops hne more
        simp only [List.cons_append, systemCommand, ht, hd, terminator_append he, Option.map_some]
  · cases h

theorem settles_singleShift (slot : ShiftSlot) : Settles 2 (singleShift slot) := by
  intro buffer t h
  cases buffer with
  | nil => cases h
  | cons b bs =>
      refine ⟨?_, fun _ => h⟩
      simp only [singleShift] at h
      split at h
      · cases h
        simp [Token.command]
        omega
      · cases h
        simp [Token.warning]

theorem settles_designation (slot : Slot) (opener : UInt8) :
    Settles 2 (designation slot opener) := by
  intro buffer t h
  cases buffer with
  | nil => cases h
  | cons b bs =>
      refine ⟨?_, fun _ => h⟩
      simp only [designation] at h
      split at h <;> cases h <;> simp [Token.command, Token.warning] <;> omega

theorem settles_lineSequence : Settles 2 lineSequence := by
  intro buffer t h
  cases buffer with
  | nil => cases h
  | cons b bs =>
      refine ⟨?_, fun _ => h⟩
      simp only [lineSequence] at h
      split at h <;> cases h <;> simp [Token.command, Token.warning] <;> omega

theorem settles_intermediateSequence : Settles 1 intermediateSequence := by
  intro buffer t h
  simp only [intermediateSequence] at h
  split at h
  · cases h
  · next final rest hf =>
      refine ⟨?_, fun more => ?_⟩
      · have hl := length_takeWhile_add isIntermediate buffer
        simp only [hf, List.length_cons] at hl
        split at h <;> cases h <;> simp only [Token.warning, List.length_cons] <;> omega
      · obtain ⟨ht, hd⟩ := run_stops (p := isIntermediate) (l := buffer) (by simp [hf]) more
        simp only [intermediateSequence, ht, hd, hf, List.cons_append]
        exact h

theorem settles_escape : Settles 0 escape := by
  intro buffer t h
  simp only [escape] at h
  split at h
  · next b bs =>
      have hlen : 0 + (0x1b :: b :: bs).length = 2 + bs.length := by
        simp only [List.length_cons]
        omega
      rw [hlen]
      simp only [List.cons_append, escape]
      split at h
      · cases h
      · cases h
      · cases h
        simp [Token.silent]
      · exact settles_singleShift .g2 h
      · exact settles_singleShift .g3 h
      · exact settles_designation .g0 b h
      · exact settles_designation .g1 b h
      · exact settles_lineSequence h
      · split at h
        · next c hc =>
            cases h
            simp [Token.command]
        · next hc =>
            split at h
            · next hi =>
                have hs := settles_intermediateSequence h
                simp only [List.length_cons] at hs
                refine ⟨by omega, fun more => ?_⟩
                simpa [hc, hi] using hs.2 more
            · next hi =>
                split at h
                · next hp =>
                    cases h
                    simp [Token.warning, hi, hp]
                · next hp =>
                    cases h
                    simp [Token.warning, hi, hp]
                    omega
  · cases h

end TermReplay

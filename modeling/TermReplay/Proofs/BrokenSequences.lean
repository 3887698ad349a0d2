import TermReplay.Proofs.TokenClaims

/-!
Sequences that are broken off. A byte that cannot be printed has no place in an escape sequence:
single shifts, sequences with intermediates and control sequences take none, and are given up in
front of one.
-/

namespace TermReplay

open Text Recognizer

/-- Control bytes, delete and high bytes. -/
def Breaks (b : UInt8) : Prop := b < 0x20 ∨ b = 0x7f ∨ 0x80 ≤ b

theorem breaks_iff {b : UInt8} : Breaks b ↔ isPrintable b = false := by
  simp only [Breaks, isPrintable, Bool.and_eq_false_iff, decide_eq_false_iff_not,
    UInt8.lt_iff_toNat_lt, UInt8.le_iff_toNat_le, ← UInt8.toNat_inj, UInt8.reduceToNat]
  omega

/-- The token takes `before` bytes in front of a buffer and only printable ones of the buffer. -/
def Token.Spares (t : Token) (before : Nat) (buffer : List UInt8) : Prop :=
  ∃ taken rest, buffer = taken ++ rest ∧ t.length = before + taken.length ∧
    ∀ b ∈ taken, isPrintable b = true

/-- A token that takes nothing of the buffer. -/
theorem Token.Spares.of_length {t : Token} {before : Nat} (h : t.length = before)
    (buffer : List UInt8) : t.Spares before buffer :=
  ⟨[], buffer, rfl, h, List.forall_mem_nil _⟩

theorem Token.Spares.cons {t : Token} {before : Nat} {b : UInt8} {bs : List UInt8}
    (h : t.Spares (before + 1) bs) (hb : isPrintable b = true) : t.Spares before (b :: bs) := by
  obtain ⟨taken, rest, rfl, hlength, hall⟩ := h
  refine ⟨b :: taken, rest, rfl, ?_, by simpa [hb] using hall⟩
  rw [hlength, List.length_cons]
  omega

/-- Printable bytes that wait for more are given up with a warning, up to the first byte that
breaks them off. -/
def GivesUp (before : Nat) (recognize : Recognizer) : Prop :=
  ∀ {run : List UInt8} {b : UInt8} (rest : List UInt8), recognize run = none →
    (∀ c ∈ run, isPrintable c = true) → isPrintable b = false →
      ∃ message, recognize (run ++ b :: rest) = some (.warning (before + run.length) message)

theorem isPrintable_of_range {low high b : UInt8} (hlow : 0x20 ≤ low) (hhigh : high ≤ 0x7e)
    (h : (low ≤ b && b ≤ high) = true) : isPrintable b = true := by
  simp only [isPrintable, Bool.and_eq_true, decide_eq_true_eq] at h ⊢
  exact ⟨UInt8.le_trans hlow h.1, UInt8.le_trans h.2 hhigh⟩

theorem isPrintable_of_isIntermediate {b : UInt8} (h : isIntermediate b = true) :
    isPrintable b = true :=
  isPrintable_of_range (by decide) (by decide) h

theorem isPrintable_of_isParam {b : UInt8} (h : isParam b = true) : isPrintable b = true :=
  isPrintable_of_range (by decide) (by decide) h

theorem isPrintable_of_isMarker {b : UInt8} (h : isMarker b = true) : isPrintable b = true :=
  isPrintable_of_range (by decide) (by decide) h

theorem isPrintable_of_isFinal {b : UInt8} (h : isFinal b = true) : isPrintable b = true :=
  isPrintable_of_range (by decide) (by decide) h

theorem takeWhile_printable {p : UInt8 → Bool} (hp : ∀ {b}, p b = true → isPrintable b = true)
    (l : List UInt8) : ∀ b ∈ l.takeWhile p, isPrintable b = true :=
  fun b hb => hp (List.all_eq_true.mp List.all_takeWhile b hb)

theorem not_of_not_printable {p : UInt8 → Bool} (hp : ∀ {b}, p b = true → isPrintable b = true)
    {b : UInt8} (hb : isPrintable b = false) : p b = false :=
  Bool.eq_false_iff.mpr fun h => by rw [hp h] at hb; cases hb

/-- A run ends in front of what is not of its kind, if not before. -/
theorem run_broken {α : Type} {p : α → Bool} {b : α} (hb : p b = false) (l m : List α) :
    (l ++ b :: m).takeWhile p = l.takeWhile p ∧
      (l ++ b :: m).dropWhile p = l.dropWhile p ++ b :: m := by
  induction l with
  | nil => simp [hb]
  | cons a l ih =>
      cases ha : p a with
      | false => simp [ha]
      | true => simpa [ha] using ih

theorem spares_singleShift {slot : ShiftSlot} {buffer : List UInt8} {t : Token}
    (h : singleShift slot buffer = some t) : t.Spares 2 buffer := by
  cases buffer with
  | nil => cases h
  | cons b bs =>
      simp only [singleShift] at h
      split at h
      · next hb =>
          cases h
          exact ⟨[b], bs, rfl, rfl, by simpa using hb⟩
      · cases h
        exact .of_length rfl (b :: bs)

theorem givesUp_singleShift (slot : ShiftSlot) : GivesUp 2 (singleShift slot) := by
  intro run b rest h hrun hb
  cases run with
  | nil => exact ⟨_, if_neg (by simp [hb])⟩
  | cons c run =>
      rw [singleShift, if_pos (hrun c (List.mem_cons_self ..))] at h
      cases h

theorem spares_intermediateSequence {buffer : List UInt8} {t : Token}
    (h : intermediateSequence buffer = some t) : t.Spares 1 buffer := by
  have hsplit := List.takeWhile_append_dropWhile (p := isIntermediate) (l := buffer)
  have hrun := takeWhile_printable isPrintable_of_isIntermediate buffer
  simp only [intermediateSequence] at h
  split at h
  · cases h
  · next final rest hf =>
      rw [hf] at hsplit
      split at h
      · next hfinal =>
          have hrange : (0x30 ≤ final && final ≤ 0x7e) = true := by simpa using hfinal
          have hprintable : isPrintable final = true :=
            isPrintable_of_range (by decide) (by decide) hrange
          cases h
          refine ⟨buffer.takeWhile isIntermediate ++ [final], rest, by simp [hsplit], ?_, ?_⟩
          · simp only [Token.warning, List.length_cons, List.length_append, List.length_nil]
            omega
          · intro b hb
            obtain hb | hb := List.mem_append.mp hb
            · exact hrun b hb
            · exact List.mem_singleton.mp hb ▸ hprintable
      · cases h
        refine ⟨_, final :: rest, hsplit.symm, ?_, hrun⟩
        simp only [Token.warning, List.length_cons]
        omega

/-- Intermediates that wait end at the first byte that is none. -/
theorem intermediateSequence_ended {run : List UInt8} {b : UInt8}
    (h : intermediateSequence run = none) (hb : isIntermediate b = false) (rest : List UInt8) :
    ∃ message, intermediateSequence (run ++ b :: rest) =
      some (.warning (1 + run.length + if 0x30 ≤ b ∧ b ≤ 0x7e then 1 else 0) message) := by
  simp only [intermediateSequence] at h
  split at h
  · next hnil =>
      have hlength := length_takeWhile_add isIntermediate run
      obtain ⟨ht, hd⟩ := run_broken hb run rest
      have hhead : (escapeCode :: run.takeWhile isIntermediate).length = 1 + run.length := by
        rw [hnil, List.length_nil] at hlength
        rw [List.length_cons]
        omega
      simp only [intermediateSequence, ht, hd, hnil, List.nil_append, hhead]
      split <;> exact ⟨_, rfl⟩
  · split at h <;> cases h

theorem givesUp_intermediateSequence : GivesUp 1 intermediateSequence := by
  intro run b rest h _ hb
  have hfinal : ¬(0x30 ≤ b ∧ b ≤ 0x7e) := by
    simp only [isPrintable, Bool.and_eq_false_iff, decide_eq_false_iff_not,
      UInt8.le_iff_toNat_le, UInt8.reduceToNat] at hb ⊢
    omega
  have hended :=
    intermediateSequence_ended h (not_of_not_printable isPrintable_of_isIntermediate hb) rest
  rwa [if_neg hfinal] at hended

def sequenceHead (body : List UInt8) : List UInt8 :=
  (cutMarker body).1.toList ++ (cutMarker body).2.takeWhile isParam ++
    ((cutMarker body).2.dropWhile isParam).takeWhile isIntermediate

theorem cutMarker_split (body : List UInt8) :
    (cutMarker body).1.toList ++ (cutMarker body).2 = body ∧
      ∀ b ∈ (cutMarker body).1.toList, isPrintable b = true := by
  cases body with
  | nil => exact ⟨rfl, nofun⟩
  | cons b bs =>
      cases hb : isMarker b with
      | false => simp [cutMarker, hb]
      | true => simp [cutMarker, hb, isPrintable_of_isMarker hb]

theorem sequenceHead_split (body : List UInt8) :
    sequenceHead body ++ ((cutMarker body).2.dropWhile isParam).dropWhile isIntermediate = body ∧
      ∀ b ∈ sequenceHead body, isPrintable b = true := by
  obtain ⟨hsplit, hmarker⟩ := cutMarker_split body
  constructor
  · rw [sequenceHead, List.append_assoc, List.takeWhile_append_dropWhile, List.append_assoc,
      List.takeWhile_append_dropWhile, hsplit]
  · intro b hb
    simp only [sequenceHead, List.mem_append] at hb
    obtain (hb | hb) | hb := hb
    · exact hmarker b hb
    · exact takeWhile_printable isPrintable_of_isParam _ b hb
    · exact takeWhile_printable isPrintable_of_isIntermediate _ b hb

theorem spares_controlSequence {body : List UInt8} {t : Token}
    (h : controlSequence (0x1b :: 0x5b :: body) = some t) : t.Spares 2 body := by
  obtain ⟨hsplit, hhead⟩ := sequenceHead_split body
  simp only [controlSequence] at h
  split at h
  · cases h
  · next final rest hf =>
      rw [hf] at hsplit
      split at h
      · next hfinal =>
          cases h
          refine ⟨sequenceHead body ++ [final], rest, by simp [hsplit], ?_, ?_⟩
          · simp only [sequenceHead, List.length_cons, List.length_append, List.length_nil]
            omega
          · intro b hb
            obtain hb | hb := List.mem_append.mp hb
            · exact hhead b hb
            · exact List.mem_singleton.mp hb ▸ isPrintable_of_isFinal hfinal
      · cases h
        refine ⟨sequenceHead body, final :: rest, hsplit.symm, ?_, hhead⟩
        simp only [Token.warning, sequenceHead, List.length_cons]
        omega

theorem cutMarker_broken {b : UInt8} (hb : isMarker b = false) (body rest : List UInt8) :
    cutMarker (body ++ b :: rest) = ((cutMarker body).1, (cutMarker body).2 ++ b :: rest) := by
  cases body with
  | nil => simp [cutMarker, hb]
  | cons c body => exact cutMarker_append (List.cons_ne_nil c body) _

/-- A control sequence that waits ends at the first byte that can only be its final byte, or
that cannot be in it at all. -/
theorem controlSequence_ended {body : List UInt8} {b : UInt8}
    (h : controlSequence (0x1b :: 0x5b :: body) = none) (hmarker : isMarker b = false)
    (hparam : isParam b = false) (hintermediate : isIntermediate b = false) (rest : List UInt8) :
    ∃ outputs message, controlSequence (0x1b :: 0x5b :: (body ++ b :: rest)) =
      some (if isFinal b then ⟨2 + body.length + 1, outputs⟩
        else .warning (2 + body.length) message) := by
  simp only [controlSequence] at h
  split at h
  · -- The run ends before its final byte, and `b` stands in the place of that.
    next hnil =>
      have hm := length_cutMarker body
      have hp := length_takeWhile_add isParam (cutMarker body).2
      have hi := length_takeWhile_add isIntermediate ((cutMarker body).2.dropWhile isParam)
      obtain ⟨htp, hdp⟩ := run_broken hparam (cutMarker body).2 rest
      obtain ⟨hti, hdi⟩ :=
        run_broken hintermediate ((cutMarker body).2.dropWhile isParam) rest
      simp only [hnil, List.length_nil] at hi
      have hhead : (0x1b :: 0x5b :: ((cutMarker body).1.toList ++
          (cutMarker body).2.takeWhile isParam ++
          ((cutMarker body).2.dropWhile isParam).takeWhile isIntermediate)).length =
            2 + body.length := by
        simp only [List.length_cons, List.length_append]
        omega
      simp only [controlSequence, cutMarker_broken hmarker, htp, hdp, hti, hdi, hnil,
        List.nil_append, hhead]
      cases isFinal b
      · exact ⟨[], _, rfl⟩
      · exact ⟨_, "", rfl⟩
  · split at h <;> cases h

theorem givesUp_controlSequence :
    GivesUp 2 fun body => controlSequence (0x1b :: 0x5b :: body) := by
  intro body b rest h _ hb
  obtain ⟨_, message, hended⟩ := controlSequence_ended h
    (not_of_not_printable isPrintable_of_isMarker hb)
    (not_of_not_printable isPrintable_of_isParam hb)
    (not_of_not_printable isPrintable_of_isIntermediate hb) rest
  rw [not_of_not_printable isPrintable_of_isFinal hb] at hended
  exact ⟨message, hended⟩

end TermReplay

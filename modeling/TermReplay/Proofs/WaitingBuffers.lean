import TermReplay.Proofs.FreshStart

/-!
What waits and what is decided. Bytes are only left waiting if at most three more make one token
of all of them. And a token that is there stays, whatever comes after it, but for a run of
printable characters up to the end of the buffer, which takes in the printable bytes that follow.
-/

namespace TermReplay

open Text Recognizer

/-- At most three more bytes make one token of the buffer and of `before` bytes in front of it. -/
def Completable (before : Nat) (recognize : Recognizer) (buffer : List UInt8) : Prop :=
  ∃ more t, more.length ≤ 3 ∧ recognize (buffer ++ more) = some t ∧
    t.length = before + (buffer ++ more).length

/-- Whatever the recognizer declines can still become a token. -/
def Completes (before : Nat) (recognize : Recognizer) : Prop :=
  ∀ {buffer : List UInt8}, recognize buffer = none → Completable before recognize buffer

namespace Completable

variable {before : Nat} {recognize recognize' : Recognizer} {b : UInt8} {bs buffer : List UInt8}

theorem cons (h : Completable (before + 1) (fun bs => recognize (b :: bs)) bs) :
    Completable before recognize (b :: bs) := by
  obtain ⟨more, t, hmore, ht, hlength⟩ := h
  refine ⟨more, t, hmore, ht, ?_⟩
  rw [hlength, List.cons_append, List.length_cons]
  omega

theorem mono (h : Completable before recognize buffer)
    (hr : ∀ {bytes t}, recognize bytes = some t → recognize' bytes = some t) :
    Completable before recognize' buffer := by
  obtain ⟨more, t, hmore, ht, hlength⟩ := h
  exact ⟨more, t, hmore, hr ht, hlength⟩

end Completable

theorem follow_lows {ranges : List Utf8.ByteRange} (h : ∀ r ∈ ranges, r.low ≤ r.high)
    (fits : Nat) :
    Utf8.follow ranges (ranges.map (·.low)) fits = .complete (fits + ranges.length) := by
  induction ranges generalizing fits with
  | nil => rfl
  | cons r ranges ih =>
      have hlow : r.contains r.low = true := by
        simp only [Utf8.ByteRange.contains, Bool.and_eq_true, decide_eq_true_eq]
        exact ⟨UInt8.le_refl _, h r (List.mem_cons_self ..)⟩
      rw [List.map_cons, Utf8.follow, if_pos hlow, ih fun r hr => h r (List.mem_cons_of_mem _ hr),
        List.length_cons, Nat.add_assoc, Nat.add_comm 1]

/-- The bytes that are missing are the lowest of the ranges still due. -/
theorem follow_completed {ranges : List Utf8.ByteRange} {bytes : List UInt8} {fits : Nat}
    (hranges : ∀ r ∈ ranges, r.low ≤ r.high) (h : Utf8.follow ranges bytes fits = .truncated) :
    ∃ more, more.length ≤ ranges.length ∧
      Utf8.follow ranges (bytes ++ more) fits = .complete (fits + (bytes ++ more).length) := by
  induction ranges generalizing bytes fits with
  | nil => cases h
  | cons r ranges ih =>
      cases bytes with
      | nil =>
          refine ⟨(r :: ranges).map (·.low), Nat.le_of_eq (List.length_map _), ?_⟩
          rw [List.nil_append, follow_lows hranges, List.length_map]
      | cons b bytes =>
          simp only [Utf8.follow] at h
          split at h
          · next hb =>
              obtain ⟨more, hmore, hf⟩ := ih (fun r hr => hranges r (List.mem_cons_of_mem _ hr)) h
              refine ⟨more, Nat.le_succ_of_le hmore, ?_⟩
              rw [List.cons_append, Utf8.follow, if_pos hb, hf, List.length_cons]
              congr 1
              omega
          · cases h

theorem following_ordered {lead : UInt8} {ranges : List Utf8.ByteRange}
    (h : Utf8.following? lead = some ranges) :
    ranges.length ≤ 3 ∧ ∀ r ∈ ranges, r.low ≤ r.high := by
  unfold Utf8.following? at h
  repeat' split at h
  all_goals cases h
  all_goals decide

/-- The beginning of a character goes on to a whole one. -/
theorem front_completed {b : UInt8} {bs : List UInt8} (h : Utf8.front (b :: bs) = .truncated) :
    ∃ more, more.length ≤ 3 ∧
      Utf8.front (b :: (bs ++ more)) = .complete (b :: (bs ++ more)).length := by
  cases hf : Utf8.following? b with
  | none => simp only [Utf8.front, hf, reduceCtorEq] at h
  | some ranges =>
      simp only [Utf8.front, hf] at h
      obtain ⟨hthree, hordered⟩ := following_ordered hf
      obtain ⟨more, hmore, hcomplete⟩ := follow_completed hordered h
      refine ⟨more, Nat.le_trans hmore hthree, ?_⟩
      simp only [Utf8.front, hf, hcomplete, List.length_cons, Nat.add_comm]

theorem completable_of_truncated {b : UInt8} {bs : List UInt8} (hb : isHigh b = true)
    (h : Utf8.front (b :: bs) = .truncated) : Completable 0 nextToken (b :: bs) := by
  obtain ⟨more, hmore, hfront⟩ := front_completed h
  have hclaim : ∃ c, multiByte (b :: (bs ++ more)) =
      some (.command (b :: (bs ++ more)).length c) := by
    simp only [multiByte, if_pos hb, hfront]
    exact ⟨_, rfl⟩
  obtain ⟨c, hc⟩ := hclaim
  exact ⟨more, _, hmore, nextToken_eq_some_iff.mpr ⟨.multiByte, hc⟩, (Nat.zero_add _).symm⟩

theorem TakesOne.completes {recognize : Recognizer} (hr : TakesOne recognize) :
    Completes 2 recognize := by
  intro buffer h
  obtain rfl := hr.waits h
  obtain ⟨t, ht, hlength⟩ := hr.2 0x42 []
  exact ⟨[0x42], t, by decide, ht, hlength⟩

theorem completes_singleShift (slot : ShiftSlot) : Completes 2 (singleShift slot) := by
  intro buffer h
  cases buffer with
  | nil => exact ⟨[0x41], _, by decide, rfl, rfl⟩
  | cons b bs =>
      simp only [singleShift] at h
      split at h <;> cases h

theorem completes_intermediateSequence : Completes 1 intermediateSequence := by
  intro buffer h
  obtain ⟨message, ht⟩ := intermediateSequence_ended h (b := 0x30) rfl []
  refine ⟨[0x30], _, by decide, ht, ?_⟩
  rw [Token.warning, if_pos (by decide), List.length_append, Nat.add_assoc]
  rfl

theorem completes_controlSequence :
    Completes 2 fun body => controlSequence (0x1b :: 0x5b :: body) := by
  intro body h
  obtain ⟨outputs, _, ht⟩ := controlSequence_ended h (b := 0x6d) rfl rfl rfl []
  refine ⟨[0x6d], ⟨2 + body.length + 1, outputs⟩, by decide, ht, ?_⟩
  rw [List.length_append, Nat.add_assoc]
  rfl

theorem completable_escape {bytes : List UInt8} (hkind : TokenKind.ofEscape bytes = .escape)
    (h : escape (0x1b :: bytes) = none) :
    Completable 1 (fun bytes => escape (0x1b :: bytes)) bytes := by
  cases bytes with
  | nil => exact ⟨[0x44], _, by decide, rfl, rfl⟩
  | cons b bs =>
      have hnone := h
      simp only [escape] at h
      split at h
      · next he =>
          obtain rfl : b = 0x5b := UInt8.toNat_inj.mp (toNat_of_char he)
          cases hkind
      · next he =>
          obtain rfl : b = 0x5d := UInt8.toNat_inj.mp (toNat_of_char he)
          cases hkind
      · cases h
      · next he =>
          obtain rfl : b = 0x4e := UInt8.toNat_inj.mp (toNat_of_char he)
          exact (completes_singleShift .g2 h).cons
      · next he =>
          obtain rfl : b = 0x4f := UInt8.toNat_inj.mp (toNat_of_char he)
          exact (completes_singleShift .g3 h).cons
      · next he => exact ((takesOne_escape (takesAny_of_char he (by decide))).completes hnone).cons
      · next he => exact ((takesOne_escape (takesAny_of_char he (by decide))).completes hnone).cons
      · next he => exact ((takesOne_escape (takesAny_of_char he (by decide))).completes hnone).cons
      · split at h
        · cases h
        · split at h
          · next hi =>
              obtain ⟨more, t, hmore, ht, hlength⟩ := completes_intermediateSequence h
              refine ⟨more, t, hmore, ?_, hlength⟩
              rw [List.cons_append] at ht
              simp [escape, *]
          · split at h <;> cases h

theorem completable_systemCommand {bytes : List UInt8}
    (h : nextToken (0x1b :: 0x5d :: bytes) = none) :
    Completable 2 (fun bytes => nextToken (0x1b :: 0x5d :: bytes)) bytes := by
  obtain ⟨body, hbody, rfl | rfl⟩ := systemCommand_waiting h
  · have ht := nextToken_systemCommand [bellCode] 1 hbody rfl rfl rfl
    exact ⟨[bellCode], _, by decide, ht, by rw [List.length_append]; rfl⟩
  · have ht := nextToken_systemCommand [0x1b, 0x5c] 2 hbody rfl rfl rfl
    refine ⟨[0x5c], _, by decide, by rwa [List.append_assoc], ?_⟩
    rw [List.append_assoc, List.length_append]
    rfl

/-- Every buffer that waits is at most three bytes away from being one token. -/
theorem completable_of_waiting {buffer : List UInt8} (hne : buffer ≠ [])
    (h : nextToken buffer = none) : Completable 0 nextToken buffer := by
  cases buffer with
  | nil => exact absurd rfl hne
  | cons b bytes =>
      obtain ⟨hb, hfront⟩ | rfl := waiting_cases h
      · exact completable_of_truncated hb hfront
      · by_cases hs : bytes.head? = some 0x5d
        · obtain ⟨bytes, rfl⟩ := List.head?_eq_some_iff.mp hs
          exact (completable_systemCommand h).cons.cons
        · have hclaim : ∀ (kind : TokenKind) {bytes t}, kind.recognizer bytes = some t →
              nextToken bytes = some t := fun kind _ _ ht => nextToken_eq_some_iff.mpr ⟨kind, ht⟩
          rw [nextToken_escape] at h
          obtain ⟨body, rfl, hkind⟩ | hkind := ofEscape_cases hs <;> rw [hkind] at h
          · exact (completes_controlSequence h).cons.cons.mono (hclaim .controlSequence)
          · exact (completable_escape hkind h).cons.mono (hclaim .escape)

def printed (run : List UInt8) : Token := .command run.length (.print (ascii run))

theorem nextToken_of_printable {buffer : List UInt8} (hne : buffer ≠ [])
    (h : buffer.all isPrintable = true) (more : List UInt8) :
    nextToken (buffer ++ more) = some (printed (buffer ++ more.takeWhile isPrintable)) := by
  have htake : (buffer ++ more).takeWhile isPrintable = buffer ++ more.takeWhile isPrintable :=
    List.takeWhile_append_of_pos (List.all_eq_true.mp h)
  rw [nextToken_of_run (by simp [htake, hne]), htake, printed]

/-- A run that is claimed ends at a byte of the buffer. -/
theorem nextToken_append_of_not_printable {buffer : List UInt8} {t : Token}
    (ht : nextToken buffer = some t) (h : buffer.all isPrintable = false) (more : List UInt8) :
    nextToken (buffer ++ more) = some t := by
  obtain ⟨kind, hk⟩ := nextToken_eq_some_iff.mp ht
  by_cases hrun : kind = .asciiRun
  · subst hrun
    have hdrop : buffer.dropWhile isPrintable ≠ [] := by
      intro hd
      rw [← (takeWhile_append_of_all hd []).1, List.all_takeWhile] at h
      cases h
    obtain ⟨hne, rfl⟩ := TokenKind.run_of_claim hk
    obtain ⟨htake, -⟩ := run_stops hdrop more
    rw [nextToken_of_run (by rwa [htake]), htake]
  · exact nextToken_eq_some_iff.mpr ⟨kind, (TokenKind.settles hrun hk).2 more⟩

/-- A buffer that waits can become one token of all its bytes and at most three more. A token
that is there is there with the same outputs whatever follows, unless it is a run of printable
characters that the whole buffer belongs to, which goes on as far as the bytes that follow do. -/
theorem waits_or_decides {buffer : List UInt8} (hne : buffer ≠ []) :
    match nextToken buffer with
    | none => ∃ more t, more.length ≤ 3 ∧ nextToken (buffer ++ more) = some t ∧
        t.length = (buffer ++ more).length
    | some t =>
      if buffer.all isPrintable then t = printed buffer ∧ ∀ more,
        nextToken (buffer ++ more) = some (printed (buffer ++ more.takeWhile isPrintable))
      else ∀ more, nextToken (buffer ++ more) = some t := by
  cases ht : nextToken buffer with
  | none =>
      obtain ⟨more, t, hmore, hclaim, hlength⟩ := completable_of_waiting hne ht
      exact ⟨more, t, hmore, hclaim, hlength.trans (Nat.zero_add _)⟩
  | some t =>
      cases hall : buffer.all isPrintable with
      | true =>
          have hrun := nextToken_of_printable hne hall
          have hwhole := hrun []
          rw [List.append_nil, ht, List.takeWhile_nil, List.append_nil] at hwhole
          exact ⟨Option.some.inj hwhole, hrun⟩
      | false => exact nextToken_append_of_not_printable ht hall

/-- A title waits while it may go on with the rest of its terminator, and is decided once the
escape byte turns out to begin something else. -/
theorem waits_or_decides_after_title :
    let openTitle := asciiBytes "\x1b]0;a\x1b"
    nextToken openTitle = none ∧
      (∃ more t, more.length ≤ 3 ∧ nextToken (openTitle ++ more) = some t ∧
        t.length = (openTitle ++ more).length) ∧
      ∀ more, nextToken (openTitle ++ [0x5b] ++ more) =
        some ⟨5, [.command (.bothTitles "a")]⟩ := by
  intro openTitle
  have hwaits : nextToken openTitle = none := by decide +kernel
  have hclaim : nextToken (openTitle ++ [0x5b]) = some ⟨5, [.command (.bothTitles "a")]⟩ := by
    decide +kernel
  have hopen := waits_or_decides (show openTitle ≠ [] by decide)
  have hcut := waits_or_decides (show openTitle ++ [0x5b] ≠ [] by decide)
  rw [hwaits] at hopen
  rw [hclaim] at hcut
  exact ⟨hwaits, hopen, hcut⟩

end TermReplay

import TermReplay.Proofs.Chunking
import TermReplay.Proofs.EscapeTokens
import TermReplay.Proofs.FullScreen
import TermReplay.Proofs.Reachability

/-!
Starting over. A bell completes or breaks off whatever a byte stream waits for, so nothing waits
after it. Of a terminal that then resets, only the size and the room for saved cursors are left,
and those never change.
-/

namespace TermReplay

open Text Recognizer

/-- All bytes are read, none wait for more. -/
def ReadsOut (buffer : List UInt8) : Prop := (readTokens buffer).2 = []

namespace ReadsOut

theorem nil : ReadsOut [] := by rw [ReadsOut, readTokens_of_none nextToken_nil]

theorem of_token (front : List UInt8) {rest : List UInt8} {t : Token}
    (h : nextToken (front ++ rest) = some t) (hlength : t.length = front.length)
    (hrest : ReadsOut rest) : ReadsOut (front ++ rest) := by
  rw [ReadsOut, readTokens_of_some h, hlength, List.drop_left]
  exact hrest

theorem bell : ReadsOut [bellCode] := of_token [bellCode] rfl rfl nil

end ReadsOut

theorem following_within {lead : UInt8} {ranges : List Utf8.ByteRange}
    (h : Utf8.following? lead = some ranges) :
    ∀ r ∈ ranges, Utf8.continuation.low ≤ r.low ∧ r.high ≤ Utf8.continuation.high := by
  unfold Utf8.following? at h
  repeat' split at h
  all_goals cases h
  all_goals decide

/-- A truncated character has only continuation bytes after its lead, and a byte that is none
makes it invalid. -/
theorem follow_truncated {ranges : List Utf8.ByteRange} {bytes : List UInt8} {fits : Nat}
    (hwithin : ∀ r ∈ ranges, Utf8.continuation.low ≤ r.low ∧ r.high ≤ Utf8.continuation.high)
    (h : Utf8.follow ranges bytes fits = .truncated) {b : UInt8}
    (hb : Utf8.continuation.contains b = false) (rest : List UInt8) :
    (∀ c ∈ bytes, Utf8.continuation.contains c = true) ∧
      ∃ n, Utf8.follow ranges (bytes ++ b :: rest) fits = .invalid n := by
  have hmono : ∀ r ∈ ranges, ∀ c, r.contains c = true → Utf8.continuation.contains c = true := by
    intro r hr c hc
    obtain ⟨hlow, hhigh⟩ := hwithin r hr
    simp only [Utf8.ByteRange.contains, Bool.and_eq_true, decide_eq_true_eq] at hc ⊢
    exact ⟨UInt8.le_trans hlow hc.1, UInt8.le_trans hc.2 hhigh⟩
  induction ranges generalizing bytes fits with
  | nil => cases h
  | cons r ranges ih =>
      cases bytes with
      | nil =>
          refine ⟨nofun, fits, if_neg fun hr => ?_⟩
          rw [hmono r (List.mem_cons_self ..) b hr] at hb
          cases hb
      | cons c bytes =>
          simp only [Utf8.follow] at h
          split at h
          · next hc =>
              obtain ⟨hall, n, hn⟩ := ih (fun r hr => hwithin r (List.mem_cons_of_mem _ hr)) h
                (fun r hr => hmono r (List.mem_cons_of_mem _ hr))
              refine ⟨?_, n, (if_pos hc).trans hn⟩
              simpa [hmono r (List.mem_cons_self ..) c hc] using hall
          · cases h

theorem following_continuation :
    ∀ b : UInt8, Utf8.continuation.contains b = true →
      isHigh b = true ∧ Utf8.following? b = none :=
  TokenKind.forall_byte (by decide +kernel)

theorem nextToken_of_invalid {b : UInt8} {bs : List UInt8} {n : Nat} (hb : isHigh b = true)
    (h : Utf8.front (b :: bs) = .invalid n) :
    ∃ t, nextToken (b :: bs) = some t ∧ t.length = 1 := by
  have hkind : TokenKind.ofBuffer (b :: bs) = .invalidByte := by
    rw [TokenKind.ofBuffer_of_high hb, h]
  rw [nextToken_eq, hkind]
  simp only [TokenKind.recognizer, invalidByte, if_pos hb, h]
  exact ⟨_, rfl, rfl⟩

theorem readsOut_continuations {bytes : List UInt8}
    (h : ∀ b ∈ bytes, Utf8.continuation.contains b = true) : ReadsOut (bytes ++ [bellCode]) := by
  induction bytes with
  | nil => exact ReadsOut.bell
  | cons b bytes ih =>
      obtain ⟨hhigh, hnone⟩ := following_continuation b (h b (List.mem_cons_self ..))
      have hfront : Utf8.front (b :: (bytes ++ [bellCode])) = .invalid 1 := by
        simp only [Utf8.front, hnone]
      obtain ⟨t, ht, hlength⟩ := nextToken_of_invalid hhigh hfront
      exact ReadsOut.of_token [b] ht hlength
        (ih fun c hc => h c (List.mem_cons_of_mem _ hc))

theorem readsOut_of_truncated {b : UInt8} {bs : List UInt8} (hb : isHigh b = true)
    (h : Utf8.front (b :: bs) = .truncated) : ReadsOut (b :: bs ++ [bellCode]) := by
  cases hranges : Utf8.following? b with
  | none => simp only [Utf8.front, hranges, reduceCtorEq] at h
  | some ranges =>
      simp only [Utf8.front, hranges] at h
      obtain ⟨hall, n, hn⟩ := follow_truncated (following_within hranges) h
        (b := bellCode) (by decide) []
      have hfront : Utf8.front (b :: (bs ++ [bellCode])) = .invalid n := by
        simp only [Utf8.front, hranges, hn]
      obtain ⟨t, ht, hlength⟩ := nextToken_of_invalid hb hfront
      exact ReadsOut.of_token [b] ht hlength (readsOut_continuations hall)

theorem readsOut_escape {bytes : List UInt8} (hs : bytes.head? ≠ some 0x5d)
    (h : nextToken (0x1b :: bytes) = none) : ReadsOut (0x1b :: bytes ++ [bellCode]) := by
  have hprintable := printable_of_waiting hs h
  by_cases hl : LosesBreak (bytes ++ [bellCode])
  · -- The bell is the third byte of a designation or of a line sequence.
    obtain ⟨t, ht, hlength⟩ := nextToken_losesBreak hl
    obtain ⟨opener, b, rest, he, -, hb⟩ := hl
    have hrest : bytes = [opener] := by
      cases bytes with
      | nil => cases he
      | cons c bytes =>
          cases bytes with
          | nil =>
              cases he
              rfl
          | cons d bytes =>
              cases he
              rw [breaks_iff, hprintable b (by simp)] at hb
              cases hb
    subst hrest
    exact ReadsOut.of_token [0x1b, opener, bellCode] ht hlength ReadsOut.nil
  · obtain ⟨message, hup⟩ := givesUp_nextToken [] hs h hprintable (by decide) hl
    refine ReadsOut.of_token (0x1b :: bytes) hup ?_ ReadsOut.bell
    rw [Token.warning, List.length_cons, Nat.add_comm]

theorem nextToken_systemCommand {body : List UInt8} (rest : List UInt8) (ending : Nat)
    (hbody : ∀ b ∈ body, isBodyByte b = true) (htake : rest.takeWhile isBodyByte = [])
    (hdrop : rest.dropWhile isBodyByte = rest) (h : terminator? rest = some ending) :
    nextToken (0x1b :: 0x5d :: (body ++ rest)) =
      some ⟨2 + body.length + ending, [systemOutput body]⟩ := by
  have hbodyTake : (body ++ rest).takeWhile isBodyByte = body := by
    rw [List.takeWhile_append_of_pos hbody, htake, List.append_nil]
  have hbodyDrop : (body ++ rest).dropWhile isBodyByte = rest := by
    rw [List.dropWhile_append_of_pos hbody, hdrop]
  have hkind : TokenKind.ofBuffer (0x1b :: 0x5d :: (body ++ rest)) = .systemCommand := rfl
  rw [nextToken_eq, hkind]
  simp only [TokenKind.recognizer, systemCommand, hbodyTake, hbodyDrop, h, Option.map_some]

/-- What a system command waits for: more of its body, or the byte after an escape byte. -/
theorem terminator_eq_none {rest : List UInt8} (h : terminator? rest = none) :
    rest = [] ∨ rest = [0x1b] := by
  unfold terminator? at h
  split at h
  · exact .inl rfl
  · next next =>
      cases next with
      | nil => exact .inr rfl
      | cons b bs => cases h
  · cases h

theorem systemCommand_waiting {bytes : List UInt8}
    (h : nextToken (0x1b :: 0x5d :: bytes) = none) :
    ∃ body, (∀ b ∈ body, isBodyByte b = true) ∧ (bytes = body ∨ bytes = body ++ [0x1b]) := by
  have hkind : TokenKind.ofBuffer (0x1b :: 0x5d :: bytes) = .systemCommand := rfl
  have hsplit := List.takeWhile_append_dropWhile (p := isBodyByte) (l := bytes)
  rw [nextToken_eq, hkind] at h
  have hnone : terminator? (bytes.dropWhile isBodyByte) = none := by
    simpa [TokenKind.recognizer, systemCommand] using h
  refine ⟨bytes.takeWhile isBodyByte, List.all_eq_true.mp List.all_takeWhile, ?_⟩
  obtain hrest | hrest := terminator_eq_none hnone <;> rw [hrest] at hsplit
  · rw [List.append_nil] at hsplit
    exact .inl hsplit.symm
  · exact .inr hsplit.symm

theorem readsOut_systemCommand {bytes : List UInt8}
    (h : nextToken (0x1b :: 0x5d :: bytes) = none) :
    ReadsOut (0x1b :: 0x5d :: bytes ++ [bellCode]) := by
  obtain ⟨body, hbody, rfl | rfl⟩ := systemCommand_waiting h
  · -- The bell ends the body.
    have ht := nextToken_systemCommand [bellCode] 1 hbody rfl rfl rfl
    have hwhole : ReadsOut (0x1b :: 0x5d :: (bytes ++ [bellCode]) ++ []) :=
      ReadsOut.of_token _ (by simpa using ht) (by simp; omega) ReadsOut.nil
    simpa using hwhole
  · -- The escape byte ends the body, and is then dropped in front of the bell.
    have ht := nextToken_systemCommand [0x1b, bellCode] 0 hbody rfl rfl rfl
    have hstray : ReadsOut [0x1b, bellCode] :=
      ReadsOut.of_token [0x1b] rfl rfl ReadsOut.bell
    have hwhole : ReadsOut (0x1b :: 0x5d :: body ++ [0x1b, bellCode]) :=
      ReadsOut.of_token _ ht (by simp; omega) hstray
    simpa using hwhole

theorem eq_escape_of_other :
    ∀ b : UInt8, controlCommand? b = none → isIgnored b = false → isPrintable b = false →
      isHigh b = false → b = 0x1b :=
  TokenKind.forall_byte (by decide +kernel)

/-- A buffer that waits begins a character of several bytes, or begins with an escape byte. -/
theorem waiting_cases {b : UInt8} {bs : List UInt8} (h : nextToken (b :: bs) = none) :
    (isHigh b = true ∧ Utf8.front (b :: bs) = .truncated) ∨ b = 0x1b := by
  rw [nextToken_eq] at h
  simp only [TokenKind.ofBuffer] at h
  split at h
  · next hc =>
      obtain ⟨c, hc⟩ := Option.isSome_iff_exists.mp hc
      simp [TokenKind.recognizer, Recognizer.control, hc] at h
  · next hc =>
      split at h
      · next hi => simp [TokenKind.recognizer, ignoredControl, hi] at h
      · next hi =>
          split at h
          · next hp => simp [TokenKind.recognizer, Recognizer.asciiRun, hp] at h
          · next hp =>
              split at h
              · next hb =>
                  refine .inl ⟨hb, ?_⟩
                  cases hf : Utf8.front (b :: bs) with
                  | complete n => simp [TokenKind.recognizer, multiByte, hf, hb] at h
                  | truncated => rfl
                  | invalid n => simp [TokenKind.recognizer, invalidByte, hf, hb] at h
              · next hb =>
                  right
                  exact eq_escape_of_other b (by simpa using hc) (by simpa using hi)
                    (by simpa using hp) (by simpa using hb)

theorem readsOut_of_waiting {buffer : List UInt8} (h : nextToken buffer = none) :
    ReadsOut (buffer ++ [bellCode]) := by
  cases buffer with
  | nil => exact ReadsOut.bell
  | cons b bs =>
      obtain ⟨hb, hfront⟩ | rfl := waiting_cases h
      · exact readsOut_of_truncated hb hfront
      · cases bs with
        | nil => exact readsOut_escape nofun h
        | cons c bytes =>
            by_cases hc : c = 0x5d
            · subst hc
              exact readsOut_systemCommand h
            · exact readsOut_escape (fun he => hc (Option.some.inj he)) h

/-- Nothing waits after a bell, whatever was read before. -/
theorem readsOut_bell (buffer : List UInt8) : ReadsOut (buffer ++ [bellCode]) := by
  rw [ReadsOut, (readTokens_append buffer [bellCode]).2]
  exact readsOut_of_waiting (nextToken_left_over buffer)

theorem Player.feed_bell_pending (p : Player) :
    (p.feed [bellCode]).player.stream.pending = [] := readsOut_bell p.stream.pending

namespace Terminal

variable {t : Terminal}

theorem restoreCursor_depth (t : Terminal) :
    t.restoreCursor.terminal.saved.depth = t.saved.depth := by
  unfold restoreCursor
  split
  · next c saved hp =>
      unfold SavedCursors.pop? at hp
      split at hp <;> cases hp
      rfl
  · rfl

theorem obey_depth (hroom : 1 ≤ t.saved.depth) (c : Command) :
    (t.obey c).terminal.saved.depth = t.saved.depth := by
  obtain rfl | rfl | rfl | rfl | ⟨kind, rfl⟩ | hc := c.keepsUnseen_cases
  · exact SavedCursors.push_depth ..
  · exact restoreCursor_depth t
  · rfl
  · exact Nat.max_eq_left hroom
  · rfl
  · exact congrArg SavedCursors.depth ((obey_unaware hc).saved t)

/-- The terminal has the size and the room of one that was created. -/
structure MadeFor (t : Terminal) (width height depth : Nat) : Prop where
  fits : t.Fits width height
  depth : t.saved.depth = max depth 1

variable {width height depth : Nat}

theorem create_madeFor (h : create width height depth = .ok t) :
    t = initial width height depth ∧ t.MadeFor width height depth := by
  obtain ⟨hsize, rfl⟩ := create_eq_ok h
  exact ⟨rfl, initial_fits hsize.1 hsize.2, rfl⟩

/-- No command changes the size or the room for saved cursors. -/
theorem MadeFor.obey (h : t.MadeFor width height depth) (c : Command) :
    (t.obey c).terminal.MadeFor width height depth where
  fits := h.fits.obey c
  depth := (obey_depth h.fits.saved.room c).trans h.depth

theorem MadeFor.followAll (h : t.MadeFor width height depth) (outputs : List Output) :
    (t.followAll outputs).terminal.MadeFor width height depth := by
  refine each_keeps (P := (·.MadeFor width height depth)) (fun output t ht => ?_) outputs h
  cases output with
  | command c => exact ht.obey c
  | warning message => exact ht

/-- A reset leaves what was created. -/
theorem MadeFor.reset (h : t.MadeFor width height depth) :
    t.reset.terminal = initial width height depth := by
  have hempty : SavedCursors.empty (max depth 1) = SavedCursors.empty depth :=
    congrArg (SavedCursors.mk []) (Nat.max_eq_left (Nat.le_max_right depth 1))
  show initial t.width t.height t.saved.depth = _
  rw [h.fits.width_eq, h.fits.height_eq, h.depth, initial, hempty]
  rfl

end Terminal

def resetSequence : List UInt8 := asciiBytes "\x1bc"

theorem readTokens_resetSequence :
    readTokens resetSequence = ([.command .reset], []) := by
  decide +kernel

namespace Player

theorem feed_madeFor {p : Player} {width height depth : Nat}
    (h : p.terminal.MadeFor width height depth) (bytes : List UInt8) :
    (p.feed bytes).player.terminal.MadeFor width height depth :=
  h.followAll _

theorem feed_resetSequence {p : Player} {width height depth : Nat}
    (hp : p.stream.pending = []) (h : p.terminal.MadeFor width height depth) :
    (p.feed resetSequence).player =
      ⟨{ limit := p.stream.limit }, Terminal.initial width height depth⟩ := by
  have hreset : (p.terminal.followAll [.command .reset]).terminal = p.terminal.reset.terminal :=
    congrArg Reaction.terminal (Terminal.each_singleton Terminal.follow (.command .reset) _)
  simp only [feed, ByteStream.feed, hp, List.nil_append, readTokens_resetSequence, hreset, h.reset]

/-- A bell and a reset erase all that a player was fed before, whatever it was: no bytes wait
after the bell, and after the reset the player does with any bytes what it did when it was new,
with the same notices, and is stuck on the same bytes. -/
theorem reset_erases_history {width height depth limit : Nat} {t : Terminal}
    (ht : Terminal.create width height depth = .ok t) (before bytes : List UInt8) :
    let fresh : Player := ⟨{ limit }, t⟩
    let rung := (fresh.feedParts before [[bellCode]]).player
    rung.stream.pending = [] ∧ (rung.feed resetSequence).player.feed bytes = fresh.feed bytes := by
  intro fresh rung
  obtain ⟨rfl, hmade⟩ := Terminal.create_madeFor ht
  have hpending : rung.stream.pending = [] := feed_bell_pending _
  have hrung : rung.terminal.MadeFor width height depth := feed_madeFor (feed_madeFor hmade _) _
  refine ⟨hpending, ?_⟩
  rw [feed_resetSequence hpending hrung]
  rfl

/-- A player with a cursor saved is stuck between the bytes that end a title. -/
theorem restart_inside_title :
    let fresh : Player := ⟨{ limit := 4 }, Terminal.initial 4 2 1⟩
    let before := asciiBytes "\x1b7abc\x1b]0;title\x1b"
    let rung := (fresh.feedParts before [[bellCode]]).player
    (fresh.feed before).stuck.isSome ∧ (fresh.feed before).player.terminal ≠ fresh.terminal ∧
      rung.stream.pending = [] ∧
      (rung.feed resetSequence).player.feed (asciiBytes "d") = fresh.feed (asciiBytes "d") :=
  have hc : Terminal.create 4 2 1 = .ok (Terminal.initial 4 2 1) := rfl
  ⟨by decide +kernel, by decide +kernel, reset_erases_history hc _ _⟩

end Player

end TermReplay

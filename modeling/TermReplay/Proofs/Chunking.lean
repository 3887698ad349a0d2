import TermReplay.Playback.Player
import TermReplay.Proofs.Reactions
import TermReplay.Proofs.TokenClaims

/-!
The cuts between calls do not matter. Text may be read in longer or shorter runs, so outputs are
compared with every run spelled out character by character; a terminal obeys both alike.
-/

namespace TermReplay

open Text Recognizer

namespace Output

/-- An output with its text, if it prints any, taken apart into characters. -/
def letters : Output → List Output
  | .command (.print text) => text.toList.map fun c => .command (.print (String.singleton c))
  | output => [output]

def spell (outputs : List Output) : List Output := outputs.flatMap letters

@[simp] theorem spell_nil : spell [] = [] := rfl

theorem spell_cons (output : Output) (outputs : List Output) :
    spell (output :: outputs) = output.letters ++ spell outputs := List.flatMap_cons

theorem spell_append (xs ys : List Output) : spell (xs ++ ys) = spell xs ++ spell ys :=
  List.flatMap_append

end Output

def typed (run : List UInt8) : List Output :=
  run.map fun b => .command (.print (String.singleton (Char.ofNat b.toNat)))

theorem spell_print_ascii (run : List UInt8) :
    Output.spell [.command (.print (ascii run))] = typed run := by
  simp [Output.spell, Output.letters, ascii, typed]

namespace Terminal

theorem followAll_append (xs ys : List Output) (t : Terminal) :
    t.followAll (xs ++ ys) = (t.followAll xs).andThen (followAll ys) :=
  each_append follow xs ys t

theorem print_singleton (c : Char) (t : Terminal) :
    t.print (String.singleton c) = printChar c t := by
  simp only [print, String.toList_singleton]
  exact each_singleton printChar c t

theorem followAll_letters (output : Output) (t : Terminal) :
    followAll output.letters t = t.follow output := by
  unfold Output.letters
  split
  · next text =>
      have hc : (fun c => follow (.command (.print (String.singleton c)))) = printChar := by
        funext c t
        exact print_singleton c t
      rw [followAll, each_map, hc]
      rfl
  · exact each_singleton follow output t

theorem followAll_spell (outputs : List Output) (t : Terminal) :
    followAll (Output.spell outputs) t = t.followAll outputs := by
  induction outputs generalizing t with
  | nil => rfl
  | cons output outputs ih =>
      rw [Output.spell_cons, followAll_append, followAll_letters]
      simp only [followAll, each]
      congr 1
      funext t
      exact ih t

end Terminal

theorem readTokens_of_none {buffer : List UInt8} (h : nextToken buffer = none) :
    readTokens buffer = ([], buffer) := by
  rw [readTokens]
  split
  · rfl
  · next he => rw [h] at he; cases he

theorem readTokens_of_some {buffer : List UInt8} {t : Token} (h : nextToken buffer = some t) :
    readTokens buffer =
      (t.outputs ++ (readTokens (buffer.drop t.length)).1,
        (readTokens (buffer.drop t.length)).2) := by
  rw [readTokens]
  split
  · next he => rw [h] at he; cases he
  · next he =>
      rw [h] at he
      cases he
      rfl

theorem takeWhile_append_of_all {α : Type} {p : α → Bool} {l : List α}
    (h : l.dropWhile p = []) (m : List α) :
    l.takeWhile p = l ∧ (l ++ m).takeWhile p = l ++ m.takeWhile p ∧
      (l ++ m).dropWhile p = m.dropWhile p := by
  have hl : l.takeWhile p = l := by
    have := List.takeWhile_append_dropWhile (p := p) (l := l)
    rwa [h, List.append_nil] at this
  refine ⟨hl, ?_, ?_⟩
  · rw [List.takeWhile_append, hl, if_pos rfl]
  · rw [List.dropWhile_append, h]
    rfl

theorem nextToken_of_run {buffer : List UInt8} (h : buffer.takeWhile isPrintable ≠ []) :
    nextToken buffer =
      some (.command (buffer.takeWhile isPrintable).length
        (.print (ascii (buffer.takeWhile isPrintable)))) := by
  apply nextToken_eq_some_iff.mpr
  refine ⟨.asciiRun, ?_⟩
  simp [TokenKind.recognizer, Recognizer.asciiRun, h]

/-- Printable bytes in front are typed whatever comes after them. -/
theorem readTokens_run (buffer : List UInt8) :
    Output.spell (readTokens buffer).1 =
        typed (buffer.takeWhile isPrintable) ++
          Output.spell (readTokens (buffer.dropWhile isPrintable)).1 ∧
      (readTokens buffer).2 = (readTokens (buffer.dropWhile isPrintable)).2 := by
  by_cases hrun : buffer.takeWhile isPrintable = []
  · have hdrop := List.takeWhile_append_dropWhile (p := isPrintable) (l := buffer)
    rw [hrun, List.nil_append] at hdrop
    simp [hrun, hdrop, typed]
  · have hdrop : buffer.drop (buffer.takeWhile isPrintable).length =
        buffer.dropWhile isPrintable := by
      conv => lhs; arg 2; rw [← List.takeWhile_append_dropWhile (p := isPrintable) (l := buffer)]
      exact List.drop_left
    rw [readTokens_of_some (nextToken_of_run hrun)]
    simp only [Token.command, hdrop, Output.spell_append, spell_print_ascii, and_self]

/-- What is read of two parts one after the other is what is read of both at once. -/
theorem readTokens_append (x y : List UInt8) :
    Output.spell (readTokens (x ++ y)).1 =
        Output.spell (readTokens x).1 ++ Output.spell (readTokens ((readTokens x).2 ++ y)).1 ∧
      (readTokens (x ++ y)).2 = (readTokens ((readTokens x).2 ++ y)).2 := by
  induction hn : x.length using Nat.strongRecOn generalizing x with
  | _ n ih =>
    cases ht : nextToken x with
    | none => simp [readTokens_of_none ht]
    | some t =>
        obtain ⟨kind, hk⟩ := nextToken_eq_some_iff.mp ht
        by_cases hrun : kind = .asciiRun
        · subst hrun
          cases hrest : x.dropWhile isPrintable with
          | nil =>
              obtain ⟨hx, htake, hdrop⟩ := takeWhile_append_of_all hrest y
              obtain ⟨hout, hleft⟩ := readTokens_run x
              rw [hrest, readTokens_of_none nextToken_nil] at hout hleft
              rw [hx] at hout
              have hxy := readTokens_run (x ++ y)
              have hy := readTokens_run y
              rw [htake, hdrop] at hxy
              simp [hout, hleft, hxy, hy, typed]
          | cons b rest =>
              have hshort : (x.dropWhile isPrintable).length < n := by
                have hl := length_takeWhile_add isPrintable x
                have hpos := List.length_pos_iff.mpr (TokenKind.run_of_claim hk).1
                omega
              obtain ⟨htake, hdrop⟩ := run_stops (by simp [hrest]) y (l := x) (p := isPrintable)
              obtain ⟨hout, hleft⟩ := ih _ hshort (x.dropWhile isPrintable) rfl
              have hx := readTokens_run x
              have hxy := readTokens_run (x ++ y)
              rw [htake, hdrop] at hxy
              simp only [hx, hxy, hout, hleft, List.append_assoc, and_self]
        · have hxy : nextToken (x ++ y) = some t :=
            nextToken_eq_some_iff.mpr ⟨kind, (TokenKind.settles hrun hk).2 y⟩
          have hdrop : (x ++ y).drop t.length = x.drop t.length ++ y :=
            List.drop_append_of_le_length (nextToken_length_le ht)
          obtain ⟨hout, hrest⟩ := ih _ (hn ▸ length_drop_nextToken ht) (x.drop t.length) rfl
          rw [readTokens_of_some ht, readTokens_of_some hxy, hdrop]
          simp only [Output.spell_append, hout, hrest, List.append_assoc, and_self]

theorem nextToken_left_over (buffer : List UInt8) : nextToken (readTokens buffer).2 = none := by
  induction hn : buffer.length using Nat.strongRecOn generalizing buffer with
  | _ n ih =>
    cases ht : nextToken buffer with
    | none => rwa [readTokens_of_none ht]
    | some t =>
        rw [readTokens_of_some ht]
        exact ih _ (hn ▸ length_drop_nextToken ht) _ rfl

theorem length_left_over_le (buffer : List UInt8) :
    (readTokens buffer).2.length ≤ buffer.length := by
  induction hn : buffer.length using Nat.strongRecOn generalizing buffer with
  | _ n ih =>
    cases ht : nextToken buffer with
    | none =>
        rw [readTokens_of_none ht]
        exact Nat.le_of_eq hn
    | some t =>
        have hshort := length_drop_nextToken ht
        rw [readTokens_of_some ht]
        exact Nat.le_trans (ih _ (hn ▸ hshort) _ rfl) (hn ▸ Nat.le_of_lt hshort)

def Played.andThen (played : Played) (f : Player → Played) : Played :=
  match played with
  | ⟨p, notices, _⟩ =>
    match f p with
    | ⟨after, more, stuck⟩ => ⟨after, notices ++ more, stuck⟩

namespace Player

def feedParts (p : Player) (first : List UInt8) : List (List UInt8) → Played
  | [] => p.feed first
  | next :: rest => (p.feed first).andThen fun p => p.feedParts next rest

theorem feed_append (p : Player) (x y : List UInt8) :
    p.feed (x ++ y) = (p.feed x).andThen fun p => p.feed y := by
  obtain ⟨hout, hleft⟩ := readTokens_append (p.stream.pending ++ x) y
  have hterminal : ∀ t : Terminal,
      t.followAll (readTokens (p.stream.pending ++ x ++ y)).1 =
        (t.followAll (readTokens (p.stream.pending ++ x)).1).andThen
          (Terminal.followAll
            (readTokens ((readTokens (p.stream.pending ++ x)).2 ++ y)).1) := by
    intro t
    rw [← Terminal.followAll_spell, hout, Terminal.followAll_append]
    simp only [Reaction.andThen, Terminal.followAll_spell]
  simp only [feed, ByteStream.feed, Played.andThen, ← List.append_assoc, hterminal, hleft,
    Reaction.andThen_terminal, Reaction.andThen_notices]
  rfl

/-- However bytes are cut into parts, feeding the parts in order comes to the same as feeding
all of them at once: the bytes left waiting, the whole terminal, every notice in its order, and
whether the stream is stuck in the end. Parts may be empty, bytes may be waiting before, and
being stuck in between stops nothing. -/
theorem feedParts_eq_feed (p : Player) (first : List UInt8) (rest : List (List UInt8)) :
    p.feedParts first rest = p.feed (first :: rest).flatten := by
  induction rest generalizing p first with
  | nil => simp [feedParts]
  | cons next rest ih =>
      rw [List.flatten_cons, feed_append, feedParts]
      simp only [ih]

end Player

end TermReplay

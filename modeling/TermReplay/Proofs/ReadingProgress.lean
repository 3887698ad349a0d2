import TermReplay.Proofs.CheckedRecognizers
import TermReplay.Proofs.Chunking

/-!
The loop over a buffer. Each round takes the range from an offset on and moves the offset over the
token in front of it. The loop comes to an end, its ranges are never outside of the buffer, and no
byte is lost or read twice.
-/

namespace TermReplay

/-- A buffer in pieces, each the bytes of the token in front of it and of what comes after, and the
bytes that are left when no token is complete. -/
inductive CutInto : List UInt8 → List (List UInt8 × Token) → List UInt8 → Prop
  | waits {rest : List UInt8} : nextToken rest = none → CutInto rest [] rest
  | token {piece after rest : List UInt8} {t : Token} {cuts : List (List UInt8 × Token)} :
      nextToken (piece ++ after) = some t → t.length = piece.length → CutInto after cuts rest →
        CutInto (piece ++ after) ((piece, t) :: cuts) rest

/-- The outputs of the rounds from `offset` on and the offset at the end, with `rounds` at most. -/
def readRounds? (buffer : List UInt8) (offset : Nat) : Nat → Option (List Output × Nat)
  | 0 => none
  | rounds + 1 => do
    match ← nextToken? (← range? buffer offset buffer.length) with
    | none => some ([], offset)
    | some token => do
      let (outputs, stop) ← readRounds? buffer (offset + token.length) rounds
      some (token.outputs ++ outputs, stop)

/-- Reads as `ByteStream.feed` does, with `rounds` at most, and keeps the range behind them. -/
def ByteStream.feed? (rounds : Nat) (s : ByteStream) (bytes : List UInt8) : Option Delivery := do
  let buffer := s.pending ++ bytes
  let (outputs, stop) ← readRounds? buffer 0 rounds
  let rest ← range? buffer stop buffer.length
  some
    { outputs
      stream := { s with pending := rest }
      stuck := if s.limit < rest.length then some ⟨rest⟩ else none }

namespace CutInto

variable {buffer rest : List UInt8} {cuts : List (List UInt8 × Token)}

theorem flatten_append (h : CutInto buffer cuts rest) :
    (cuts.map Prod.fst).flatten ++ rest = buffer := by
  induction h with
  | waits => rfl
  | token _ _ _ ih => rw [List.map_cons, List.flatten_cons, List.append_assoc, ih]

/-- A piece for each token takes at least one byte. -/
theorem length_add_le (h : CutInto buffer cuts rest) :
    cuts.length + rest.length ≤ buffer.length := by
  induction h with
  | waits => exact Nat.le_of_eq (Nat.zero_add _)
  | token ht hlength _ ih =>
      have hpos := nextToken_length_pos ht
      rw [List.length_cons, List.length_append]
      omega

theorem readTokens_eq (h : CutInto buffer cuts rest) :
    readTokens buffer = (cuts.flatMap (·.2.outputs), rest) := by
  induction h with
  | waits ht => exact readTokens_of_none ht
  | token ht hlength _ ih =>
      rw [readTokens_of_some ht, hlength, List.drop_left, ih, List.flatMap_cons]

theorem exists_cuts (buffer : List UInt8) : ∃ cuts rest, CutInto buffer cuts rest := by
  induction hn : buffer.length using Nat.strongRecOn generalizing buffer with
  | _ n ih =>
    cases ht : nextToken buffer with
    | none => exact ⟨[], buffer, .waits ht⟩
    | some t =>
        obtain ⟨cuts, rest, hcuts⟩ := ih _ (hn ▸ length_drop_nextToken ht) _ rfl
        have hlength := List.length_take_of_le (nextToken_length_le ht)
        have hbuffer := List.take_append_drop t.length buffer
        have h := CutInto.token (hbuffer.symm ▸ ht) hlength.symm hcuts
        exact ⟨_, rest, hbuffer ▸ h⟩

/-- One round for each piece, and one more in which no token is found. -/
theorem readRounds?_eq (h : CutInto buffer cuts rest) (front : List UInt8) (rounds : Nat) :
    readRounds? (front ++ buffer) front.length rounds =
      if cuts.length < rounds then
        some (cuts.flatMap (·.2.outputs), (front ++ (cuts.map Prod.fst).flatten).length)
      else none := by
  induction h generalizing front rounds with
  | waits ht =>
      cases rounds with
      | zero => rfl
      | succ rounds =>
          simp only [readRounds?, range?_back, nextToken?_eq, Option.bind_eq_bind,
            Option.bind_some, ht]
          simp
  | @token piece after _ t _ ht hlength _ ih =>
      cases rounds with
      | zero => rfl
      | succ rounds =>
          have hnext := ih (front ++ piece) rounds
          rw [List.append_assoc, List.length_append, ← hlength] at hnext
          simp only [readRounds?, range?_back, nextToken?_eq, Option.bind_eq_bind,
            Option.bind_some, ht, hnext, List.length_cons, Nat.add_lt_add_iff_right]
          split
          · simp
          · rfl

end CutInto

namespace ByteStream

variable {s : ByteStream} {bytes rest : List UInt8} {cuts : List (List UInt8 × Token)}

/-- Reading goes through if there are more rounds than tokens, and is then the same as without a
limit. -/
theorem feed?_eq (h : CutInto (s.pending ++ bytes) cuts rest) (rounds : Nat) :
    s.feed? rounds bytes = if cuts.length < rounds then some (s.feed bytes) else none := by
  have hrounds := h.readRounds?_eq [] rounds
  have hrest := range?_back (cuts.map Prod.fst).flatten rest
  rw [h.flatten_append] at hrest
  simp only [List.nil_append, List.length_nil] at hrounds
  simp only [feed?, feed, hrounds, h.readTokens_eq]
  split
  · simp only [Option.bind_eq_bind, Option.bind_some, hrest]
  · rfl

theorem stuck_iff (s : ByteStream) (bytes : List UInt8) (e : StuckInput) :
    (s.feed bytes).stuck = some e ↔
      s.limit < (s.feed bytes).stream.pending.length ∧
        e.pending = (s.feed bytes).stream.pending := by
  simp only [feed]
  split
  · next h =>
      rw [Option.some.injEq]
      exact ⟨fun he => he ▸ ⟨h, rfl⟩, fun he => congrArg StuckInput.mk he.2.symm⟩
  · next h => simp [h]

/-- No recognizer takes a range that is not in its buffer, and the token that is chosen takes at
least one byte and none that is not there. So the loop over what waited and what came ends, with one
round for each token and one more, whatever the bytes. The bytes of the tokens followed by those
that wait on are all the bytes there were. And a stream is stuck on the bytes that wait, exactly if
they are more than its limit. -/
theorem feed_progress (s : ByteStream) (bytes : List UInt8) :
    (∀ buffer, (∀ kind : TokenKind, kind.checked buffer = some (kind.recognizer buffer)) ∧
      nextToken? buffer = some (nextToken buffer) ∧
      ∀ t, nextToken buffer = some t → 1 ≤ t.length ∧ t.length ≤ buffer.length) ∧
    (∃ cuts, CutInto (s.pending ++ bytes) cuts (s.feed bytes).stream.pending ∧
      (cuts.map Prod.fst).flatten ++ (s.feed bytes).stream.pending = s.pending ++ bytes ∧
      (s.feed bytes).outputs = cuts.flatMap (·.2.outputs) ∧
      cuts.length ≤ (s.pending ++ bytes).length ∧
      ∀ rounds,
        s.feed? rounds bytes = if cuts.length < rounds then some (s.feed bytes) else none) ∧
    ∀ e, (s.feed bytes).stuck = some e ↔
      s.limit < (s.feed bytes).stream.pending.length ∧
        e.pending = (s.feed bytes).stream.pending := by
  refine ⟨fun buffer => ⟨(·.checked_eq buffer), nextToken?_eq buffer, fun t ht =>
    ⟨nextToken_length_pos ht, nextToken_length_le ht⟩⟩, ?_, stuck_iff s bytes⟩
  obtain ⟨cuts, rest, hcuts⟩ := CutInto.exists_cuts (s.pending ++ bytes)
  have hread := hcuts.readTokens_eq
  have hrest : (s.feed bytes).stream.pending = rest := by simp only [feed, hread]
  have houtputs : (s.feed bytes).outputs = cuts.flatMap (·.2.outputs) := by
    simp only [feed, hread]
  rw [hrest]
  exact ⟨cuts, hcuts, hcuts.flatten_append, houtputs,
    Nat.le_trans (Nat.le_add_right _ _) hcuts.length_add_le, feed?_eq hcuts⟩

end ByteStream

end TermReplay

import TermReplay.Playback.Basic

/-!
Chunks fed one after the other. Whatever feeds chunks, and whatever it stops at, leaves the
playback as it was but for its player and its position, and both have moved on by the same chunks.
-/

namespace TermReplay

namespace Player

def feedChunks (p : Player) (chunks : List Chunk) : Player :=
  chunks.foldl (fun p chunk => (p.feed chunk.data).player) p

theorem feedChunks_append (p : Player) (xs ys : List Chunk) :
    p.feedChunks (xs ++ ys) = (p.feedChunks xs).feedChunks ys :=
  List.foldl_append

/-- How much may wait has no part in what is read and obeyed. -/
theorem freeze_feed_congr {p q : Player} (h : p.freeze = q.freeze) (bytes : List UInt8) :
    (p.feed bytes).player.freeze = (q.feed bytes).player.freeze := by
  simp only [freeze, Frozen.mk.injEq] at h
  simp only [freeze, feed, ByteStream.feed, h.1, h.2]

theorem freeze_feedChunks_congr {p q : Player} (h : p.freeze = q.freeze) (chunks : List Chunk) :
    (p.feedChunks chunks).freeze = (q.feedChunks chunks).freeze := by
  induction chunks generalizing p q with
  | nil => exact h
  | cons chunk chunks ih => exact ih (freeze_feed_congr h chunk.data)

@[simp] theorem freeze_thaw (p : Player) (f : Frozen) : (p.thaw f).1.freeze = f := rfl

end Player

namespace Playback

/-- The playback after `count` more chunks, with everything else as it was. -/
def played (p : Playback) (count : Nat) : Playback :=
  { p with
    player := p.player.feedChunks ((p.chunks.toList.drop p.next).take count)
    next := p.next + count }

def nextStuck (p : Playback) : Option Corrupt := p.feedNext.2.2

variable {p : Playback}

@[simp] theorem played_zero (p : Playback) : p.played 0 = p := rfl

@[simp] theorem played_chunks (count : Nat) : (p.played count).chunks = p.chunks := rfl

@[simp] theorem played_next (count : Nat) : (p.played count).next = p.next + count := rfl

theorem played_played (p : Playback) (m n : Nat) : (p.played m).played n = p.played (m + n) := by
  simp only [played, ← Player.feedChunks_append, List.take_add, List.drop_drop, Nat.add_assoc]

theorem feedNext_playback (h : p.next < p.chunks.size) : p.feedNext.1 = p.played 1 := by
  have hlist : p.next < p.chunks.toList.length := h
  have hone : (p.chunks.toList.drop p.next).take 1 = [p.chunks[p.next]] := by
    rw [List.drop_eq_getElem_cons hlist]
    rfl
  simp only [feedNext, Array.getElem?_eq_getElem h, played, hone]
  rfl

theorem isFinished_eq_false : p.isFinished = false ↔ p.next < p.chunks.size := by
  simp [isFinished]

theorem isFinished_eq_true : p.isFinished = true ↔ p.chunks.size ≤ p.next := by
  simp [isFinished]

theorem isDue_eq_true : p.isDue = true ↔ p.next < p.chunks.size ∧ p.offset p.next ≤ p.clock := by
  simp [isDue, isFinished]

theorem feedWhile_of_false {condition : Playback → Bool} (h : condition p = false)
    (budget : Nat) : feedWhile condition budget p = ⟨p, [], .ok 0⟩ := by
  cases budget <;> simp [feedWhile, h]

/-- What feeding came to: `count` chunks that were each asked for, none of them stuck but the
last one of a feeding that failed. A feeding that did not fail stopped because its budget was
spent or no more was asked for. -/
structure Plays (fed : Fed) (p : Playback) (condition : Playback → Bool) (budget count : Nat) :
    Prop where
  playback_eq : fed.playback = p.played count
  count_le : count ≤ budget
  inside : p.next + count ≤ p.chunks.size
  asked : ∀ k, k < count → condition (p.played k) = true
  outcome :
    (fed.result = .ok count ∧ (∀ k, k < count → (p.played k).nextStuck = none) ∧
      (count = budget ∨ condition (p.played count) = false)) ∨
    ∃ e last, fed.result = .error e ∧ count = last + 1 ∧ (p.played last).nextStuck = some e ∧
      ∀ k, k < last → (p.played k).nextStuck = none

theorem feedWhile_plays {condition : Playback → Bool}
    (hc : ∀ q : Playback, condition q = true → q.next < q.chunks.size) (budget : Nat)
    (hp : p.next ≤ p.chunks.size) :
    ∃ count, Plays (feedWhile condition budget p) p condition budget count := by
  induction budget generalizing p with
  | zero => exact ⟨0, rfl, Nat.le_refl _, hp, nofun, .inl ⟨rfl, nofun, .inl rfl⟩⟩
  | succ budget ih =>
      cases ha : condition p with
      | false =>
          rw [feedWhile_of_false ha]
          exact ⟨0, rfl, Nat.zero_le _, hp, nofun, .inl ⟨rfl, nofun, .inr ha⟩⟩
      | true =>
          have hlt := hc p ha
          have hnext := feedNext_playback hlt
          simp only [feedWhile, ha, if_true]
          rcases hfed : p.feedNext with ⟨q, notices, stuck⟩
          have hstuck : p.nextStuck = stuck := by rw [nextStuck, hfed]
          rw [hfed] at hnext
          subst hnext
          have hshift : ∀ k, ((p.played 1).played k) = p.played (k + 1) := fun k => by
            rw [played_played, Nat.add_comm]
          cases stuck with
          | some e =>
              have hone : ∀ k, k < 1 → condition (p.played k) = true := by
                intro k hk
                rwa [Nat.lt_one_iff.mp hk]
              exact ⟨1, rfl, Nat.succ_le_succ (Nat.zero_le _), hlt, hone,
                .inr ⟨e, 0, rfl, rfl, hstuck, nofun⟩⟩
          | none =>
              obtain ⟨count, hplays⟩ := ih (p := p.played 1) hlt
              have hasked : ∀ k, k < count + 1 → condition (p.played k) = true := by
                intro k hk
                cases k with
                | zero => exact ha
                | succ k => exact hshift k ▸ hplays.asked k (Nat.lt_of_succ_lt_succ hk)
              have hfree : ∀ last, (∀ k, k < last → ((p.played 1).played k).nextStuck = none) →
                  ∀ k, k < last + 1 → (p.played k).nextStuck = none := by
                intro last h k hk
                cases k with
                | zero => exact hstuck
                | succ k => exact hshift k ▸ h k (Nat.lt_of_succ_lt_succ hk)
              refine ⟨count + 1, ?_, Nat.succ_le_succ hplays.count_le, ?_, hasked, ?_⟩
              · exact hplays.playback_eq.trans (hshift count)
              · have := hplays.inside
                simp only [played_next, played_chunks] at this
                omega
              · obtain ⟨hok, hnone, hend⟩ | ⟨e, last, herror, hcount, hlast, hnone⟩ :=
                  hplays.outcome
                · refine .inl ⟨?_, hfree count hnone, ?_⟩
                  · simp only [hok]
                    rfl
                  · exact hend.imp (congrArg (· + 1)) fun h => hshift count ▸ h
                · refine .inr ⟨e, last + 1, ?_, congrArg (· + 1) hcount, hshift last ▸ hlast, ?_⟩
                  · simp only [herror]
                    rfl
                  · exact hfree last hnone

end Playback

end TermReplay

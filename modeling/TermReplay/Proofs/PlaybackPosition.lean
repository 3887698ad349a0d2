import TermReplay.Proofs.ChunksPlayed

/-!
Position and state of a playback. Ticks, jumps and changes of speed follow each other in any
order, and a tick may fail half way; the position always says which chunks made the state.
-/

namespace TermReplay

/-- The state of a bookmark is the one that the chunks before its position lead to. -/
structure Bookmark.Agrees (mark : Bookmark) (origin : Player) (recording : Recording) : Prop where
  next_le : mark.next ≤ recording.length
  frozen_eq : mark.frozen = (origin.feedChunks (recording.take mark.next)).freeze

namespace Playback

/-- A playback of a recording that a player began and whose position and state agree. -/
structure InStep (p : Playback) (origin : Player) (recording : Recording) : Prop where
  start_eq : p.start = origin.freeze
  chunks_eq : p.chunks.toList = recording
  agrees : p.bookmark.Agrees origin recording

variable {p : Playback} {origin : Player} {recording : Recording}

theorem InStep.size_eq (h : p.InStep origin recording) : p.chunks.size = recording.length := by
  rw [← h.chunks_eq, Array.length_toList]

theorem create_inStep (origin : Player) (recording : Recording) (chunksPerTick : Nat) :
    (create origin recording chunksPerTick).InStep origin recording where
  start_eq := rfl
  chunks_eq := rfl
  agrees := ⟨Nat.zero_le _, rfl⟩

theorem InStep.played (h : p.InStep origin recording) {count : Nat}
    (hc : p.next + count ≤ p.chunks.size) : (p.played count).InStep origin recording where
  start_eq := h.start_eq
  chunks_eq := h.chunks_eq
  agrees := by
    refine ⟨h.size_eq ▸ hc, ?_⟩
    have hstep := Player.freeze_feedChunks_congr h.agrees.frozen_eq
      ((recording.drop p.next).take count)
    rw [← Player.feedChunks_append] at hstep
    show ((p.player.feedChunks ((p.chunks.toList.drop p.next).take count))).freeze =
      (origin.feedChunks (recording.take (p.next + count))).freeze
    rw [h.chunks_eq, List.take_add]
    exact hstep

/-- Clock and speed have no part in it. -/
theorem InStep.of_bookmark (h : p.InStep origin recording) {q : Playback}
    (hs : q.start = p.start) (hc : q.chunks = p.chunks) (hn : q.next = p.next)
    (hp : q.player = p.player) : q.InStep origin recording where
  start_eq := hs.trans h.start_eq
  chunks_eq := hc ▸ h.chunks_eq
  agrees := by
    have ha := h.agrees
    simp only [bookmark] at ha ⊢
    rw [hp, hn]
    exact ⟨ha.next_le, ha.frozen_eq⟩

theorem InStep.feedWhile (h : p.InStep origin recording) {condition : Playback → Bool}
    (hc : ∀ q : Playback, condition q = true → q.next < q.chunks.size) (budget : Nat) :
    (feedWhile condition budget p).playback.InStep origin recording := by
  have hp : p.next ≤ p.chunks.size := h.size_eq ▸ h.agrees.next_le
  obtain ⟨count, hplays⟩ := feedWhile_plays hc budget hp
  rw [hplays.playback_eq]
  exact h.played hplays.inside

/-- A tick feeds chunks from the position on and nothing else. -/
theorem InStep.tick (h : p.InStep origin recording) (elapsed : Duration) :
    (p.tick elapsed).playback.InStep origin recording := by
  apply InStep.feedWhile
  · exact h.of_bookmark rfl rfl rfl rfl
  · intro q hq
    exact (isDue_eq_true.mp hq).1

theorem InStep.runToEnd (h : p.InStep origin recording) :
    p.runToEnd.playback.InStep origin recording := by
  have hfed : (Playback.feedWhile (!·.isFinished) (p.chunks.size - p.next) p).playback.InStep
      origin recording := by
    apply h.feedWhile
    intro q hq
    exact isFinished_eq_false.mp (Bool.not_eq_true' _ ▸ hq)
  simp only [Playback.runToEnd]
  rcases hf : Playback.feedWhile (!·.isFinished) (p.chunks.size - p.next) p with
    ⟨q, notices, result⟩
  rw [hf] at hfed
  cases result with
  | error e => exact hfed
  | ok count =>
      simp only [catchUp]
      split
      · exact hfed
      · exact hfed.of_bookmark rfl rfl rfl rfl

theorem InStep.setSpeed (h : p.InStep origin recording) (speed : Float) :
    (p.setSpeed speed).InStep origin recording := by
  unfold Playback.setSpeed
  split
  · exact h.of_bookmark rfl rfl rfl rfl
  · exact h

theorem InStep.rewind (h : p.InStep origin recording) :
    p.rewind.1.InStep origin recording where
  start_eq := h.start_eq
  chunks_eq := h.chunks_eq
  agrees := ⟨Nat.zero_le _, h.start_eq⟩

theorem InStep.restore (h : p.InStep origin recording) {mark : Bookmark}
    (hm : mark.Agrees origin recording) : (p.restore mark).1.InStep origin recording where
  start_eq := h.start_eq
  chunks_eq := h.chunks_eq
  agrees := by
    have hnext : min mark.next p.chunks.size = mark.next :=
      Nat.min_eq_left (h.size_eq ▸ hm.next_le)
    show Bookmark.Agrees ⟨mark.frozen, min mark.next p.chunks.size, mark.clock⟩ origin recording
    rw [hnext]
    exact hm

inductive Step
  | tick (elapsed : Duration)
  | runToEnd
  | setSpeed (speed : Float)
  | setChunksPerTick (count : Nat)
  | rewind
  /-- Takes one more bookmark. -/
  | bookmark
  /-- Goes to a bookmark taken earlier; the first one has number zero. -/
  | restore (number : Nat)

/-- A playback with the bookmarks taken from it, oldest first. -/
structure Session where
  playback : Playback
  marks : List Bookmark := []

namespace Session

/-- A failed call is not the end: the playback it leaves goes on. -/
def step (s : Session) : Step → Session
  | .tick elapsed => { s with playback := (s.playback.tick elapsed).playback }
  | .runToEnd => { s with playback := s.playback.runToEnd.playback }
  | .setSpeed speed => { s with playback := s.playback.setSpeed speed }
  | .setChunksPerTick count => { s with playback := s.playback.setChunksPerTick count }
  | .rewind => { s with playback := s.playback.rewind.1 }
  | .bookmark => { s with marks := s.marks ++ [s.playback.bookmark] }
  | .restore number =>
    match s.marks[number]? with
    | some mark => { s with playback := (s.playback.restore mark).1 }
    | none => s

def run (s : Session) (steps : List Step) : Session := steps.foldl step s

structure InStep (s : Session) (origin : Player) (recording : Recording) : Prop where
  playback : s.playback.InStep origin recording
  marks : ∀ mark ∈ s.marks, mark.Agrees origin recording

variable {s : Session}

/-- No operation of a caller takes the state away from the position, not even one that fails. -/
theorem InStep.step (h : s.InStep origin recording) (a : Step) :
    (s.step a).InStep origin recording := by
  cases a with
  | tick elapsed => exact { h with playback := h.playback.tick elapsed }
  | runToEnd => exact { h with playback := h.playback.runToEnd }
  | setSpeed speed => exact { h with playback := h.playback.setSpeed speed }
  | setChunksPerTick count =>
      exact { h with playback := h.playback.of_bookmark rfl rfl rfl rfl }
  | rewind => exact { h with playback := h.playback.rewind }
  | bookmark =>
      refine { h with marks := ?_ }
      intro mark hm
      obtain hm | hm := List.mem_append.mp hm
      · exact h.marks mark hm
      · exact List.mem_singleton.mp hm ▸ h.playback.agrees
  | restore number =>
      simp only [Session.step]
      split
      · next mark hm =>
          have hmark := h.marks mark (List.mem_of_getElem? hm)
          exact { h with playback := h.playback.restore hmark }
      · exact h

/-- The invariant holds over all operations of a caller, in whatever order they come. -/
theorem InStep.run (h : s.InStep origin recording) (steps : List Step) :
    (s.run steps).InStep origin recording := by
  induction steps generalizing s with
  | nil => exact h
  | cons a steps ih => exact ih (h.step a)

end Session

/-- However ticks, runs to the end, changes of speed, bookmarks and jumps follow each other, and
whether they fail or not, the position stays inside the recording, and the terminal and the bytes
that wait are those of a player that takes over the state at the start and is fed the chunks
before the position, each of them once and in order. -/
theorem position_tells_state (player : Player) (recording : Recording) (chunksPerTick : Nat)
    (steps : List Step) :
    let p := (Session.run ⟨create player recording chunksPerTick, []⟩ steps).playback
    p.next ≤ recording.length ∧
      ∀ other : Player, p.player.freeze =
        ((other.thaw player.freeze).1.feedChunks (recording.take p.next)).freeze := by
  have hstart : Session.InStep ⟨create player recording chunksPerTick, []⟩ player recording :=
    ⟨create_inStep player recording chunksPerTick, List.forall_mem_nil _⟩
  have hagrees := (hstart.run steps).playback.agrees
  intro p
  refine ⟨hagrees.next_le, ?_⟩
  intro other
  rw [Player.freeze_feedChunks_congr (Player.freeze_thaw other player.freeze)]
  exact hagrees.frozen_eq

end Playback

end TermReplay

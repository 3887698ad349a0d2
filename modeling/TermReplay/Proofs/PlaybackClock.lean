import TermReplay.Proofs.PlaybackPosition
import TermReplay.Proofs.RunningToEnd

/-!
The clock of a playback and the chunks it has played. A tick moves the clock first and feeds what
is due by then, so the clock covers whatever it feeds, also where it fails. A run to the end feeds
first and then looks at the last chunk only, if it gets that far; whether the clock covers what
it fed is up to the recording.
-/

namespace TermReplay

namespace Duration

theorem le_add (a b : Duration) : a ≤ a.add b :=
  Nat.le_min.mpr ⟨Nat.le_add_right .., a.le_longest⟩

theorem le_latest_left (a b : Duration) : a ≤ a.latest b := by
  rw [latest]
  split
  · assumption
  · exact Nat.le_refl _

theorem le_latest_right (a b : Duration) : b ≤ a.latest b := by
  rw [latest]
  split
  · exact Nat.le_refl _
  · next h => exact Nat.le_of_not_le h

theorem since_mono {a b : Duration} (h : a ≤ b) (start : Duration) :
    a.since start ≤ b.since start :=
  Nat.le_min.mpr ⟨Nat.le_trans (Nat.min_le_left ..) (Nat.sub_le_sub_right h _),
    Nat.min_le_right ..⟩

theorem latest_zero (a : Duration) : a.latest zero = a := by
  rw [latest]
  split
  · next h => exact eq_of_nanoseconds (Nat.le_zero.mp h).symm
  · rfl

end Duration

namespace Playback

/-- No chunk before the position of the bookmark is later than its clock. -/
def Covers (p : Playback) (mark : Bookmark) : Prop :=
  ∀ i, i < mark.next → p.offset i ≤ mark.clock

def Covered (p : Playback) : Prop := p.Covers p.bookmark

/-- None of the chunks that a run to the end would feed is later than the clock, or, if all of
them can be read, than the last chunk. -/
def CatchesUp (p : Playback) : Prop :=
  match p.runToEnd.result with
  | .ok _ => ∀ i, p.next ≤ i → i < p.chunks.size →
      p.offset i ≤ p.clock.latest (p.offset (p.chunks.size - 1))
  | .error e => ∀ i, p.next ≤ i → i ≤ e.index → p.offset i ≤ p.clock

variable {p q : Playback}

theorem offset_congr (h : q.chunks = p.chunks) (i : Nat) : q.offset i = p.offset i := by
  simp only [offset, h]

theorem Covers.congr {mark : Bookmark} (h : p.Covers mark) (hc : q.chunks = p.chunks) :
    q.Covers mark :=
  fun i hi => offset_congr hc i ▸ h i hi

/-- A playback that went on: what it played before is covered still. -/
theorem Covered.goneOn_iff (h : p.Covered) (hc : q.chunks = p.chunks)
    (hclock : p.clock ≤ q.clock) :
    q.Covered ↔ ∀ i, p.next ≤ i → i < q.next → p.offset i ≤ q.clock := by
  constructor
  · intro hq i _ hi
    exact offset_congr hc i ▸ hq i hi
  · intro hnew i hi
    rw [offset_congr hc]
    by_cases hlt : i < p.next
    · exact Nat.le_trans (h i hlt) hclock
    · exact hnew i (Nat.le_of_not_lt hlt) hi

theorem offset_mono (hordered : p.chunks.toList.Pairwise (·.time ≤ ·.time)) {i j : Nat}
    (hij : i ≤ j) (hj : j < p.chunks.size) : p.offset i ≤ p.offset j := by
  have hi : i < p.chunks.size := Nat.lt_of_le_of_lt hij hj
  have hzero : 0 < p.chunks.size := Nat.zero_lt_of_lt hj
  simp only [offset, Array.getElem?_eq_getElem hi, Array.getElem?_eq_getElem hj,
    Array.getElem?_eq_getElem hzero]
  obtain rfl | hlt := Nat.eq_or_lt_of_le hij
  · exact Nat.le_refl _
  · exact Duration.since_mono (List.pairwise_iff_getElem.mp hordered i j hi hj hlt) _

theorem Covered.played_iff (h : p.Covered) (count : Nat) {clock : Duration}
    (hclock : p.clock ≤ clock) :
    ({ p.played count with clock } : Playback).Covered ↔
      ∀ i, p.next ≤ i → i < p.next + count → p.offset i ≤ clock :=
  h.goneOn_iff rfl hclock

/-- A tick only feeds what is due. -/
theorem Covered.tick (h : p.Covered) (hp : p.next ≤ p.chunks.size) (elapsed : Duration) :
    (p.tick elapsed).playback.Covered := by
  obtain ⟨count, hplays⟩ := tick_plays elapsed hp
  rw [hplays.playback_eq]
  refine (h.played_iff count (Duration.le_add p.clock (p.pace elapsed))).mpr ?_
  intro i hle hlt
  obtain ⟨k, rfl⟩ := Nat.exists_eq_add_of_le hle
  exact (isDue_eq_true.mp (hplays.asked k (Nat.lt_of_add_lt_add_left hlt))).2

theorem catchUp_eq (p : Playback) :
    p.catchUp = { p with clock := p.clock.latest (p.offset (p.chunks.size - 1)) } := by
  rw [catchUp]
  split
  · next hempty =>
      have hnone : p.offset (p.chunks.size - 1) = .zero := by
        simp [offset, Array.isEmpty_iff.mp hempty]
      rw [hnone, Duration.latest_zero]
  · rfl

theorem nextStuck_index {e : Corrupt} (h : p.nextStuck = some e) : e.index = p.next := by
  simp only [nextStuck, feedNext] at h
  split at h
  · cases h
  · obtain ⟨stuck, -, rfl⟩ := Option.map_eq_some_iff.mp h
    rfl

/-- A run to the end feeds all that is left, or fails at a chunk that it has fed. -/
theorem runToEnd_cases (hp : p.next ≤ p.chunks.size) :
    (∃ count, p.next + count = p.chunks.size ∧ p.runToEnd.result = .ok count ∧
        p.runToEnd.playback = (p.played count).catchUp) ∨
      ∃ last e, e.index = p.next + last ∧ e.index < p.chunks.size ∧
        p.runToEnd.result = .error e ∧ p.runToEnd.playback = p.played (last + 1) := by
  have hunfinished : ∀ q : Playback, (!q.isFinished) = true → q.next < q.chunks.size :=
    fun q hq => isFinished_eq_false.mp (Bool.not_eq_true' _ ▸ hq)
  obtain ⟨count, hplays⟩ := feedWhile_plays hunfinished (p.chunks.size - p.next) hp
  have hinside := hplays.inside
  simp only [runToEnd]
  rcases hf : feedWhile (!·.isFinished) (p.chunks.size - p.next) p with ⟨q, notices, result⟩
  rw [hf] at hplays
  obtain rfl : q = p.played count := hplays.playback_eq
  obtain ⟨hok, -, hstop⟩ | ⟨e, last, herror, rfl, hstuck, -⟩ := hplays.outcome
  · obtain rfl : result = .ok count := hok
    refine .inl ⟨count, ?_, rfl, rfl⟩
    obtain rfl | hfinished := hstop
    · omega
    · exact Nat.le_antisymm hinside (isFinished_eq_true.mp (Bool.not_eq_false' _ ▸ hfinished))
  · obtain rfl : result = .error e := herror
    have hindex : e.index = p.next + last := nextStuck_index hstuck
    exact .inr ⟨last, e, hindex, hindex ▸ hinside, rfl, rfl⟩

theorem Covered.runToEnd_iff (h : p.Covered) (hp : p.next ≤ p.chunks.size) :
    p.runToEnd.playback.Covered ↔ p.CatchesUp := by
  obtain ⟨count, hend, hok, hplayback⟩ | ⟨last, e, hindex, -, herror, hplayback⟩ :=
    runToEnd_cases hp
  · have hlatest := Duration.le_latest_left p.clock (p.offset (p.chunks.size - 1))
    have hiff := h.played_iff count hlatest
    rw [hend] at hiff
    rw [CatchesUp, hok, hplayback, catchUp_eq]
    exact hiff
  · have hiff := h.played_iff (last + 1) (Nat.le_refl p.clock.nanoseconds)
    rw [← Nat.add_assoc, ← hindex] at hiff
    simp only [Nat.lt_succ_iff] at hiff
    rw [CatchesUp, herror, hplayback]
    exact hiff

/-- In the order of time the last chunk is the latest, and a run to the end catches up unless it
fails at a chunk that was not due. -/
theorem catchesUp_iff_of_ordered (hp : p.next ≤ p.chunks.size)
    (hordered : p.chunks.toList.Pairwise (·.time ≤ ·.time)) :
    p.CatchesUp ↔ ∀ e, p.runToEnd.result = .error e → p.offset e.index ≤ p.clock := by
  obtain ⟨count, -, hok, -⟩ | ⟨last, e, hindex, hinside, herror, -⟩ := runToEnd_cases hp
  · rw [CatchesUp, hok]
    refine iff_of_true ?_ nofun
    intro i _ hi
    exact Nat.le_trans (offset_mono hordered (Nat.le_sub_one_of_lt hi) (by omega))
      (Duration.le_latest_right ..)
  · rw [CatchesUp, herror]
    constructor
    · rintro hfed _ ⟨⟩
      exact hfed e.index (hindex ▸ Nat.le_add_right ..) (Nat.le_refl _)
    · intro hdue i _ hi
      exact Nat.le_trans (offset_mono hordered hi hinside) (hdue e rfl)

theorem rewind_covered (p : Playback) : p.rewind.1.Covered :=
  fun i hi => absurd hi (Nat.not_lt_zero i)

theorem Covers.restore {mark : Bookmark} (h : p.Covers mark) : (p.restore mark).1.Covered :=
  fun i hi => h i (Nat.lt_of_lt_of_le hi (Nat.min_le_left ..))

theorem setSpeed_bookmark (p : Playback) (speed : Float) :
    (p.setSpeed speed).chunks = p.chunks ∧ (p.setSpeed speed).bookmark = p.bookmark := by
  unfold setSpeed
  split <;> exact ⟨rfl, rfl⟩

namespace Session

/-- The clock covers what is played, and that of each bookmark what was played when it was
taken. -/
structure Covered (s : Session) : Prop where
  playback : s.playback.Covered
  marks : ∀ mark ∈ s.marks, s.playback.Covers mark

variable {s : Session} {origin : Player} {recording : Recording}

theorem step_chunks (h : s.InStep origin recording) (a : Step) :
    (s.step a).playback.chunks = s.playback.chunks :=
  Array.toList_inj.mp ((h.step a).playback.chunks_eq.trans h.playback.chunks_eq.symm)

theorem InStep.next_le_size (h : s.InStep origin recording) :
    s.playback.next ≤ s.playback.chunks.size :=
  h.playback.size_eq ▸ h.playback.agrees.next_le

/-- Of all steps only a run to the end can leave the clock behind. -/
theorem Covered.step_playback_iff (h : s.Covered) (hs : s.InStep origin recording) (a : Step) :
    (s.step a).playback.Covered ↔ (a = .runToEnd → s.playback.CatchesUp) := by
  have hp := hs.next_le_size
  by_cases ha : a = .runToEnd
  · subst ha
    exact (h.playback.runToEnd_iff hp).trans ⟨fun hcatches _ => hcatches, fun hall => hall rfl⟩
  · refine iff_of_true ?_ fun hrun => absurd hrun ha
    cases a with
    | tick elapsed => exact h.playback.tick hp elapsed
    | runToEnd => exact absurd rfl ha
    | setSpeed speed =>
        obtain ⟨hchunks, hmark⟩ := setSpeed_bookmark s.playback speed
        show (s.playback.setSpeed speed).Covers (s.playback.setSpeed speed).bookmark
        rw [hmark]
        exact h.playback.congr hchunks
    | setChunksPerTick count => exact h.playback
    | rewind => exact s.playback.rewind_covered
    | bookmark => exact h.playback
    | restore number =>
        simp only [Session.step]
        split
        · next mark hm => exact (h.marks mark (List.mem_of_getElem? hm)).restore
        · exact h.playback

/-- The only new bookmark is one of the playback as it stands. -/
theorem mem_marks_step {a : Step} {mark : Bookmark} (h : mark ∈ (s.step a).marks) :
    mark ∈ s.marks ∨ mark = s.playback.bookmark := by
  cases a with
  | bookmark => exact (List.mem_append.mp h).imp_right List.mem_singleton.mp
  | restore number =>
      simp only [Session.step] at h
      split at h <;> exact .inl h
  | _ => exact .inl h

/-- A new bookmark is one of the playback, and the ones that were taken stay as they are. -/
theorem Covered.step (h : s.Covered) (hs : s.InStep origin recording) {a : Step}
    (ha : (s.step a).playback.Covered) : (s.step a).Covered where
  playback := ha
  marks := by
    intro mark hm
    refine Covers.congr ?_ (step_chunks hs a)
    obtain hold | rfl := mem_marks_step hm
    · exact h.marks mark hold
    · exact h.playback

def after (s : Session) (steps : List Step) (count : Nat) : Session := s.run (steps.take count)

theorem after_succ {steps : List Step} {count : Nat} {a : Step} (ha : steps[count]? = some a) :
    s.after steps (count + 1) = (s.after steps count).step a := by
  rw [after, List.take_add_one, ha, run, List.foldl_append]
  rfl

theorem after_succ_of_none {steps : List Step} {count : Nat} (ha : steps[count]? = none) :
    s.after steps (count + 1) = s.after steps count := by
  rw [after, List.take_add_one, ha, Option.toList_none, List.append_nil]
  rfl

/-- A session stays covered if its playback does, step after step. -/
theorem Covered.after (h : s.Covered) (hs : s.InStep origin recording) {steps : List Step}
    (hnext : ∀ (count : Nat) (a : Step), steps[count]? = some a → (s.after steps count).Covered →
      ((s.after steps count).step a).playback.Covered) (count : Nat) :
    (s.after steps count).Covered := by
  induction count with
  | zero => exact h
  | succ count ih =>
      cases ha : steps[count]? with
      | none => exact after_succ_of_none ha ▸ ih
      | some a => exact after_succ ha ▸ ih.step (hs.run _) (hnext count a ha ih)

theorem Covered.after_iff (h : s.Covered) (hs : s.InStep origin recording) (steps : List Step) :
    (∀ count, (s.after steps count).playback.Covered) ↔
      ∀ count, steps[count]? = some .runToEnd → (s.after steps count).playback.CatchesUp := by
  constructor
  · intro hall count hrun
    have hcovered : (s.after steps count).Covered :=
      h.after hs (fun count a ha _ => after_succ ha ▸ hall (count + 1)) count
    exact (hcovered.step_playback_iff (hs.run _) .runToEnd).mp
      (after_succ hrun ▸ hall (count + 1)) rfl
  · intro hcatch count
    refine (h.after hs ?_ count).playback
    intro count a ha hcovered
    refine (hcovered.step_playback_iff (hs.run _) a).mpr ?_
    rintro rfl
    exact hcatch count ha

end Session

/-- However ticks, runs to the end, changes of speed, bookmarks and jumps to them follow each
other, and whether they fail or not, the clock is never behind a chunk that is played, exactly if
each of the runs to the end catches up. -/
theorem clock_covers_iff (player : Player) (recording : Recording) (chunksPerTick : Nat)
    (steps : List Step) :
    let s := Session.after ⟨create player recording chunksPerTick, []⟩ steps
    (∀ count i, i < (s count).playback.next →
        (s count).playback.offset i ≤ (s count).playback.clock) ↔
      ∀ count, steps[count]? = some .runToEnd → (s count).playback.CatchesUp := by
  have hcovered : Session.Covered ⟨create player recording chunksPerTick, []⟩ :=
    ⟨fun i hi => absurd hi (Nat.not_lt_zero i), List.forall_mem_nil _⟩
  have hinStep : Session.InStep ⟨create player recording chunksPerTick, []⟩ player recording :=
    ⟨create_inStep player recording chunksPerTick, List.forall_mem_nil _⟩
  exact hcovered.after_iff hinStep steps

/-- The second chunk is played a second early, and the clock stays where it was: the chunk leaves
a title that is longer than the stream may keep, and the run to the end fails there. -/
theorem stuck_chunk_ahead_of_clock :
    let player : Player := { stream := { limit := 16 }, terminal := Terminal.initial 10 3 64 }
    let stuck : List UInt8 := [0x1B, 0x5D, 0x30, 0x3B] ++ List.replicate 32 0x78
    let s := Session.after
      ⟨create player [⟨.zero, [0x61]⟩, ⟨.ofSeconds 1 0, stuck⟩] 60, []⟩ [.runToEnd] 1
    s.playback.next = 2 ∧ s.playback.offset 1 = .ofSeconds 1 0 ∧ s.playback.clock = .zero := by
  decide +kernel

/-- Also a run that reads all of the recording can leave the clock behind: it goes to the time of
the last chunk, which here is earlier than the second. -/
example :
    let player : Player := { stream := { limit := 16 }, terminal := Terminal.initial 10 3 64 }
    let recording : Recording :=
      [⟨.zero, [0x61]⟩, ⟨.ofSeconds 2 0, [0x62]⟩, ⟨.ofSeconds 1 0, [0x63]⟩]
    let s := Session.after ⟨create player recording 60, []⟩ [.runToEnd] 1
    s.playback.next = 3 ∧ s.playback.offset 1 = .ofSeconds 2 0 ∧
      s.playback.clock = .ofSeconds 1 0 := by
  decide +kernel

end Playback

end TermReplay

import TermReplay.Playback.Headless
import TermReplay.Proofs.ChunksPlayed
import TermReplay.Proofs.Chunking
import TermReplay.Proofs.Consistency

/-!
Runs of equal ticks. A tick that moves the clock brings every recording to its end. One that does
not move it, because the length of a tick at the speed of the playback comes to less than a
nanosecond, leaves a run in front of the first chunk that is later than the start.
-/

namespace TermReplay

namespace Duration

theorem add_of_nanoseconds_eq_zero (a : Duration) {b : Duration} (h : b.nanoseconds = 0) :
    a.add b = a := by
  apply eq_of_nanoseconds
  simp only [add, ofNanoseconds, h, Nat.add_zero]
  exact Nat.min_eq_left a.le_longest

end Duration

namespace Playback

/-- Ticks of one length come to an end: after so many of them nothing is left to feed, or a chunk
was corrupt. -/
inductive Ends (elapsed : Duration) : Playback → Prop
  | finished {p : Playback} (h : p.isFinished = true) : Ends elapsed p
  | corrupt {p : Playback} {e : Corrupt} (h : p.isFinished = false)
      (he : (p.tick elapsed).result = .error e) : Ends elapsed p
  | tick {p : Playback} {count : Nat} (h : p.isFinished = false)
      (hc : (p.tick elapsed).result = .ok count) (rest : Ends elapsed (p.tick elapsed).playback) :
      Ends elapsed p

/-- The playback with its clock moved by one tick, before anything is fed. -/
def later (p : Playback) (elapsed : Duration) : Playback :=
  { p with clock := p.clock.add (p.pace elapsed) }

variable {p : Playback} {elapsed : Duration}

theorem tick_plays (elapsed : Duration) (hp : p.next ≤ p.chunks.size) :
    ∃ count, Plays (p.tick elapsed) (p.later elapsed) isDue p.chunksPerTick count :=
  feedWhile_plays (fun _ hq => (isDue_eq_true.mp hq).1) p.chunksPerTick hp

theorem later_nanoseconds (p : Playback) (elapsed : Duration) :
    (p.later elapsed).clock.nanoseconds =
      min (p.clock.nanoseconds + (p.pace elapsed).nanoseconds)
        (Number.twoTo 64 * second - 1) := rfl

theorem later_eq_self (h : (p.pace elapsed).nanoseconds = 0) : p.later elapsed = p := by
  rw [later, Duration.add_of_nanoseconds_eq_zero p.clock h]

theorem Plays.ok_count {fed : Fed} {condition : Playback → Bool} {budget count fedCount : Nat}
    (h : Plays fed p condition budget count) (hok : fed.result = .ok fedCount) :
    (∀ k, k < count → (p.played k).nextStuck = none) ∧
      (count = budget ∨ condition (p.played count) = false) := by
  obtain ⟨-, hnone, hend⟩ | ⟨e, last, herror, -⟩ := h.outcome
  · exact ⟨hnone, hend⟩
  · rw [hok] at herror
    cases herror

/-- A tick with a chunk due feeds it. -/
theorem Plays.count_pos {fed : Fed} {budget count fedCount : Nat}
    (h : Plays fed p isDue budget count) (hok : fed.result = .ok fedCount) (hb : 0 < budget)
    (hdue : p.isDue = true) : 0 < count := by
  obtain rfl | hpos := Nat.eq_zero_or_pos count
  · obtain hbudget | hnot := (h.ok_count hok).2
    · omega
    · rw [played_zero, hdue] at hnot
      cases hnot
  · exact hpos

theorem movedOn_of_count_pos (elapsed : Duration) {count : Nat} (hc : 0 < count)
    (hin : p.next + count ≤ p.chunks.size) :
    Run.movedOn p ((p.later elapsed).played count) = true := by
  simp only [Run.movedOn, Bool.or_eq_true, decide_eq_true_eq]
  refine .inl ?_
  show p.chunks.size - (p.next + count) < p.chunks.size - p.next
  omega

/-- A tick that moves the clock brings a playback on: either the clock is not at the end of time
and was moved, or every chunk is due. -/
theorem movedOn_of_pace (hpace : 0 < (p.pace elapsed).nanoseconds) (hb : 0 < p.chunksPerTick)
    (hfinished : p.isFinished = false) {count : Nat}
    (hok : (p.tick elapsed).result = .ok count) :
    Run.movedOn p (p.tick elapsed).playback = true := by
  have hlt := isFinished_eq_false.mp hfinished
  obtain ⟨count, hplays⟩ := tick_plays elapsed (Nat.le_of_lt hlt)
  rw [hplays.playback_eq]
  obtain rfl | hpos := Nat.eq_zero_or_pos count
  · have hnot : (p.later elapsed).isDue ≠ true := fun hdue =>
      absurd (hplays.count_pos hok hb hdue) (Nat.lt_irrefl 0)
    have hoffset : ¬p.offset p.next ≤ (p.later elapsed).clock := fun hle =>
      hnot (isDue_eq_true.mpr ⟨hlt, hle⟩)
    have hclock : (p.later elapsed).clock.nanoseconds < (p.offset p.next).nanoseconds :=
      Nat.lt_of_not_le hoffset
    have hlongest := (p.offset p.next).le_longest
    have hadd := later_nanoseconds p elapsed
    simp only [Run.movedOn, Bool.or_eq_true, Bool.and_eq_true, decide_eq_true_eq, beq_iff_eq]
    refine .inr ⟨rfl, ?_⟩
    show p.clock.nanoseconds < (p.later elapsed).clock.nanoseconds
    omega
  · exact movedOn_of_count_pos elapsed hpos hplays.inside

/-- What does not bring a playback on leaves it as it is. -/
theorem tick_eq_self_of_not_movedOn (hp : p.next ≤ p.chunks.size)
    (h : Run.movedOn p (p.tick elapsed).playback ≠ true) : (p.tick elapsed).playback = p := by
  obtain ⟨count, hplays⟩ := tick_plays elapsed hp
  rw [hplays.playback_eq] at h ⊢
  obtain rfl | hpos := Nat.eq_zero_or_pos count
  · have hclock : (p.later elapsed).clock = p.clock := by
      have hadd := later_nanoseconds p elapsed
      have hlongest := p.clock.le_longest
      have hnot : ¬p.clock.nanoseconds < (p.later elapsed).clock.nanoseconds := by
        intro hlt
        refine h ?_
        simp only [Run.movedOn, Bool.or_eq_true, Bool.and_eq_true, decide_eq_true_eq, beq_iff_eq]
        exact .inr ⟨rfl, hlt⟩
      exact Duration.eq_of_nanoseconds (by omega)
    show { p with clock := (p.later elapsed).clock } = p
    rw [hclock]
  · exact (h (movedOn_of_count_pos elapsed hpos hplays.inside)).elim

/-- Progress at every tick brings the end. -/
theorem ends_of_movedOn {I : Playback → Prop}
    (step : ∀ (q : Playback) (count : Nat), I q → q.isFinished = false →
      (q.tick elapsed).result = .ok count →
      Run.movedOn q (q.tick elapsed).playback = true ∧ I (q.tick elapsed).playback)
    (h : I p) : p.Ends elapsed := by
  have hwf := InvImage.wf Run.ahead (Prod.lex Nat.lt_wfRel Nat.lt_wfRel).wf
  induction p using hwf.induction with
  | _ p ih =>
    cases hf : p.isFinished with
    | true => exact .finished hf
    | false =>
        cases hr : (p.tick elapsed).result with
        | error e => exact .corrupt hf hr
        | ok count =>
            obtain ⟨hmoved, hnext⟩ := step p count h hf hr
            exact .tick hf hr (ih _ (Run.ahead_lt_of_movedOn hmoved) hnext)

theorem tick_next_le (hp : p.next ≤ p.chunks.size) :
    (p.tick elapsed).playback.next ≤ (p.tick elapsed).playback.chunks.size := by
  obtain ⟨count, hplays⟩ := tick_plays elapsed hp
  rw [hplays.playback_eq]
  exact hplays.inside

/-- A tick leaves the speed and the limit of chunks alone. -/
theorem tick_pace (elapsed : Duration) (hp : p.next ≤ p.chunks.size) :
    (p.tick elapsed).playback.chunksPerTick = p.chunksPerTick ∧
      (p.tick elapsed).playback.pace elapsed = p.pace elapsed := by
  obtain ⟨count, hplays⟩ := tick_plays elapsed hp
  rw [hplays.playback_eq]
  exact ⟨rfl, rfl⟩

theorem ends_of_pace (hp : p.next ≤ p.chunks.size) (hb : 0 < p.chunksPerTick)
    (hpace : 0 < (p.pace elapsed).nanoseconds) : p.Ends elapsed := by
  refine ends_of_movedOn (I := fun q => q.next ≤ q.chunks.size ∧ 0 < q.chunksPerTick ∧
    0 < (q.pace elapsed).nanoseconds) ?_ ⟨hp, hb, hpace⟩
  rintro q count ⟨hq, hqb, hqpace⟩ hf hok
  obtain ⟨hlimit, hspeed⟩ := tick_pace elapsed hq
  refine ⟨movedOn_of_pace hqpace hqb hf hok, tick_next_le hq, ?_, ?_⟩
  · rwa [hlimit]
  · rwa [hspeed]

/-- Some chunk is later than the start, and none before it is corrupt. -/
def Blocked (p : Playback) : Prop :=
  ∃ m, p.offset m ≠ .zero ∧ ∀ k, k < m → (p.played k).nextStuck = none

theorem offset_eq_zero_iff (m : Nat) : p.offset m = .zero ↔ p.offset m ≤ .zero := by
  constructor
  · intro h
    rw [h]
    exact Nat.le_refl _
  · intro h
    exact Duration.eq_of_nanoseconds (Nat.le_zero.mp h)

theorem lt_size_of_offset {m : Nat} (h : p.offset m ≠ .zero) : m < p.chunks.size := by
  apply Nat.lt_of_not_le
  intro hle
  apply h
  rw [offset, Array.getElem?_eq_none hle]

section Still

variable (hclock : p.clock = .zero) (hnext : p.next = 0)
include hclock hnext

theorem played_isDue_iff (n : Nat) :
    (p.played n).isDue = true ↔ n < p.chunks.size ∧ p.offset n = .zero := by
  rw [isDue_eq_true, played_next, hnext, Nat.zero_add, offset_eq_zero_iff, ← hclock]
  rfl

variable (hpace : (p.pace elapsed).nanoseconds = 0)
include hpace

theorem tick_played_plays {n : Nat} (hn : n ≤ p.chunks.size) :
    ∃ count, n + count ≤ p.chunks.size ∧
      Plays ((p.played n).tick elapsed) (p.played n) isDue p.chunksPerTick count ∧
      ∀ k, k < count → p.offset (n + k) = .zero := by
  have hn' : (p.played n).next ≤ (p.played n).chunks.size := by
    rw [played_next, hnext, Nat.zero_add]
    exact hn
  obtain ⟨count, hplays⟩ := tick_plays elapsed hn'
  have hsame : (p.played n).later elapsed = p.played n := later_eq_self hpace
  rw [hsame] at hplays
  refine ⟨count, ?_, hplays, ?_⟩
  · have hin := hplays.inside
    rwa [played_next, hnext, Nat.zero_add] at hin
  · intro k hk
    have hdue := hplays.asked k hk
    rw [played_played] at hdue
    exact ((played_isDue_iff hclock hnext _).mp hdue).2

/-- Ticks stop in front of the chunk that blocks them. -/
theorem Blocked.not_ends (h : p.Blocked) : ¬p.Ends elapsed := by
  obtain ⟨m, hm, hfree⟩ := h
  have hsize := lt_size_of_offset hm
  have hbefore : ∀ n count, n ≤ m → (∀ k, k < count → p.offset (n + k) = .zero) →
      n + count ≤ m := by
    intro n count hn hzero
    apply Nat.le_of_not_lt
    intro hlt
    have hat := hzero (m - n) (by omega)
    rw [Nat.add_sub_cancel' hn] at hat
    exact hm hat
  have hrest : ∀ q : Playback, q.Ends elapsed → ∀ n, n ≤ m → q ≠ p.played n := by
    intro q hq
    induction hq with
    | finished hf =>
        rintro n hn rfl
        have := isFinished_eq_true.mp hf
        simp only [played_chunks, played_next] at this
        omega
    | corrupt hf he =>
        rintro n hn rfl
        obtain ⟨count, -, hplays, hzero⟩ :=
          tick_played_plays hclock hnext hpace (Nat.le_trans hn (Nat.le_of_lt hsize))
        have hcount := hbefore n count hn hzero
        obtain ⟨hok, -⟩ | ⟨e, last, -, hlast, hstuck, -⟩ := hplays.outcome
        · rw [he] at hok
          cases hok
        · rw [played_played, hfree (n + last) (by omega)] at hstuck
          cases hstuck
    | tick hf hok rest ih =>
        rintro n hn rfl
        obtain ⟨count, -, hplays, hzero⟩ :=
          tick_played_plays hclock hnext hpace (Nat.le_trans hn (Nat.le_of_lt hsize))
        refine ih (n + count) (hbefore n count hn hzero) ?_
        rw [hplays.playback_eq, played_played]
  intro hends
  exact hrest p hends 0 (Nat.zero_le m) rfl

theorem ends_of_not_blocked (hb : 0 < p.chunksPerTick) (h : ¬p.Blocked) : p.Ends elapsed := by
  refine ends_of_movedOn (I := fun q => ∃ n, n ≤ p.chunks.size ∧ q = p.played n ∧
    ∀ k, k < n → (p.played k).nextStuck = none) ?_ ⟨0, Nat.zero_le _, rfl, nofun⟩
  rintro _ _ ⟨n, hn, rfl, hfree⟩ hf hok
  obtain ⟨count, hin, hplays, -⟩ := tick_played_plays hclock hnext hpace hn
  have hlt := isFinished_eq_false.mp hf
  rw [played_next, hnext, Nat.zero_add] at hlt
  have hzero : p.offset n = .zero :=
    Decidable.byContradiction fun hne => h ⟨n, hne, hfree⟩
  have hdue := (played_isDue_iff hclock hnext n).mpr ⟨hlt, hzero⟩
  have hpos := hplays.count_pos hok hb hdue
  have hsame : (p.played n).later elapsed = p.played n := later_eq_self hpace
  have hmoved := movedOn_of_count_pos elapsed hpos hplays.inside
  rw [hsame, ← hplays.playback_eq] at hmoved
  refine ⟨hmoved, n + count, hin, ?_, ?_⟩
  · rw [hplays.playback_eq, played_played]
  · intro k hk
    obtain hk' | hk' := Nat.lt_or_ge k n
    · exact hfree k hk'
    · have hnone := (hplays.ok_count hok).1 (k - n) (by omega)
      rwa [played_played, Nat.add_sub_cancel' hk'] at hnone

end Still

/-- From its start, ticks end a playback just if they move its clock, or every chunk that is
later than the start has a corrupt one before it. -/
theorem ends_iff_of_start (hclock : p.clock = .zero) (hnext : p.next = 0)
    (hb : 0 < p.chunksPerTick) :
    p.Ends elapsed ↔ 0 < (p.pace elapsed).nanoseconds ∨ ¬p.Blocked := by
  obtain hpace | hpace := Nat.eq_zero_or_pos (p.pace elapsed).nanoseconds
  · rw [hpace, or_iff_right (Nat.lt_irrefl 0)]
    exact ⟨fun hends hblocked => hblocked.not_ends hclock hnext hpace hends,
      ends_of_not_blocked hclock hnext hpace hb⟩
  · exact iff_of_true (ends_of_pace (hnext ▸ Nat.zero_le _) hb hpace) (.inl hpace)

end Playback

namespace Run

variable {r : Run} {elapsed : Duration}

/-- A tick of a run is one of its playback. -/
theorem tick_eq (r : Run) (elapsed : Duration) :
    ∃ next, r.tick (r.playback.pace elapsed) =
        (next, match (r.playback.tick elapsed).result with
          | .error e => some e
          | .ok _ => none) ∧
      next.playback = (r.playback.tick elapsed).playback := by
  rcases h : r.playback.advance (r.playback.pace elapsed) with ⟨playback, notices, result⟩
  simp only [tick, Playback.tick, h]
  cases result <;> exact ⟨_, rfl, rfl⟩

theorem toEnd_of_corrupt {time : Duration} {next : Run} {e : Corrupt}
    (hf : r.playback.isFinished = false) (h : r.tick time = (next, some e)) :
    r.toEnd time = (next, .corrupt e) := by
  rw [toEnd, hf, h]
  rfl

theorem toEnd_of_movedOn {time : Duration} {next : Run} (hf : r.playback.isFinished = false)
    (h : r.tick time = (next, none)) (hm : movedOn r.playback next.playback = true) :
    r.toEnd time = next.toEnd time := by
  rw [toEnd, hf, h]
  exact dif_pos hm

theorem toEnd_of_not_movedOn {time : Duration} {next : Run} (hf : r.playback.isFinished = false)
    (h : r.tick time = (next, none)) (hm : movedOn r.playback next.playback ≠ true) :
    r.toEnd time = (next, .stalled) := by
  rw [toEnd, hf, h]
  exact dif_neg hm

theorem toEnd_ne_stalled {p : Playback} (h : p.Ends elapsed) (hp : p.next ≤ p.chunks.size)
    (hr : r.playback = p) : (r.toEnd (p.pace elapsed)).2 ≠ .stalled := by
  induction h generalizing r with
  | finished hf =>
      subst hr
      rw [toEnd, hf]
      nofun
  | corrupt hf he =>
      subst hr
      obtain ⟨next, hstep, -⟩ := r.tick_eq elapsed
      rw [he] at hstep
      rw [toEnd_of_corrupt hf hstep]
      nofun
  | tick hf hok rest ih =>
      subst hr
      obtain ⟨next, hstep, hnext⟩ := r.tick_eq elapsed
      rw [hok] at hstep
      have hrest : ∀ q : Run, q.playback = (r.playback.tick elapsed).playback →
          (q.toEnd (r.playback.pace elapsed)).2 ≠ .stalled := by
        intro q hq
        rw [← (Playback.tick_pace _ hp).2]
        exact ih (Playback.tick_next_le hp) hq
      by_cases hm : movedOn r.playback next.playback = true
      · rw [toEnd_of_movedOn hf hstep hm]
        exact hrest next hnext
      · -- Nothing moved, so what is said of the playback after the tick is said of this one.
        rw [hnext] at hm
        exact hrest r (Playback.tick_eq_self_of_not_movedOn hp hm).symm

/-- A run that does not stall comes to its end. -/
theorem ends_of_toEnd (hp : r.playback.next ≤ r.playback.chunks.size)
    (h : (r.toEnd (r.playback.pace elapsed)).2 ≠ .stalled) : r.playback.Ends elapsed := by
  refine Playback.ends_of_movedOn (I := fun q => ∃ r : Run, r.playback = q ∧
    q.next ≤ q.chunks.size ∧ (r.toEnd (q.pace elapsed)).2 ≠ .stalled) ?_ ⟨r, rfl, hp, h⟩
  rintro _ count ⟨r, rfl, hp, h⟩ hf hok
  obtain ⟨next, hstep, hnext⟩ := r.tick_eq elapsed
  rw [hok] at hstep
  have hmoved : movedOn r.playback next.playback = true := by
    refine Decidable.byContradiction fun hm => h ?_
    rw [toEnd_of_not_movedOn hf hstep hm]
  rw [toEnd_of_movedOn hf hstep hmoved] at h
  refine ⟨hnext ▸ hmoved, next, hnext, Playback.tick_next_le hp, ?_⟩
  rwa [(Playback.tick_pace _ hp).2]

end Run

namespace Settings

variable {s : Settings}

theorem check_eq_ok_iff :
    s.check = .ok () ↔ 1 ≤ s.terminal.columns ∧ 2 ≤ s.terminal.rows ∧
      1 ≤ s.terminal.savedCursors ∧ 16 ≤ s.stream.maxPending ∧ 1 ≤ s.timing.chunksPerTick ∧
      isForward s.timing.speed = true ∧ 1 ≤ s.timing.tickRate := by
  simp only [check, bind_eq_ok_iff, require_eq_ok_iff, decide_eq_true_eq]

def freshPlayer (s : Settings) : Player :=
  { stream := { limit := s.stream.maxPending }
    terminal := Terminal.initial s.terminal.columns s.terminal.rows s.terminal.savedCursors }

def freshPlayback (s : Settings) (recording : Recording) : Playback :=
  { Playback.create s.freshPlayer recording s.timing.chunksPerTick with speed := s.timing.speed }

theorem player_eq (hs : s.check = .ok ()) : s.player = .ok s.freshPlayer := by
  obtain ⟨hcolumns, hrows, -⟩ := check_eq_ok_iff.mp hs
  rw [player, Terminal.create, if_pos ⟨hcolumns, hrows⟩]
  rfl

theorem playback_eq (hs : s.check = .ok ()) (recording : Recording) :
    s.playback recording = .ok (s.freshPlayback recording) := by
  obtain ⟨-, -, -, -, -, hspeed, -⟩ := check_eq_ok_iff.mp hs
  have hset : (Playback.create s.freshPlayer recording s.timing.chunksPerTick).setSpeed
      s.timing.speed = s.freshPlayback recording := by
    rw [Playback.setSpeed, if_pos hspeed]
    rfl
  rw [playback, player_eq hs, ← hset]
  rfl

/-- A run with settings that pass the check comes to its end, all of the recording fed or a chunk
corrupt, just if a tick at its speed is as long as half a nanosecond and so moves the clock, or
every chunk that is later than the start has a corrupt one before it. Otherwise it ticks on
without end, and this is when it is told to have stalled. -/
theorem run_ends_iff (hs : s.check = .ok ()) (recording : Recording) :
    ∃ p, s.playback recording = .ok p ∧
      (p.Ends s.tickLength ↔
        0 < (s.tickLength.scaled s.timing.speed).nanoseconds ∨ ¬p.Blocked) ∧
      ∀ r : Run, r.playback = p →
        ((r.toEnd (p.pace s.tickLength)).2 = .stalled ↔ ¬p.Ends s.tickLength) := by
  refine ⟨s.freshPlayback recording, playback_eq hs recording, ?_, ?_⟩
  · exact Playback.ends_iff_of_start rfl rfl (Nat.le_max_right ..)
  · intro r hr
    constructor
    · intro hstalled hends
      exact Run.toEnd_ne_stalled hends (Nat.zero_le _) hr hstalled
    · intro hnot
      rw [← hr] at hnot ⊢
      exact Decidable.byContradiction fun hmoving =>
        hnot (Run.ends_of_toEnd (hr ▸ Nat.zero_le _) hmoving)

/-- With the defaults a tick is a sixtieth of a second, and a run ends. -/
theorem run_ends_with_defaults :
    let s : Settings := {}
    let recording : Recording := [⟨.zero, [0x61]⟩, ⟨.ofSeconds 1 0, [0x62]⟩]
    s.check = .ok () ∧ 0 < (s.tickLength.scaled s.timing.speed).nanoseconds ∧
      ∃ p, s.playback recording = .ok p ∧ p.Ends s.tickLength := by
  intro s recording
  have hs : s.check = .ok () := check_eq_ok_iff.mpr (by decide)
  have hpace : 0 < (s.tickLength.scaled s.timing.speed).nanoseconds := by decide
  obtain ⟨p, hp, hends, -⟩ := run_ends_iff hs recording
  exact ⟨hs, hpace, p, hp, hends.mpr (.inl hpace)⟩

/-- A thousand million ticks in a second are one nanosecond each, and a quarter of that does not
move the clock: the second chunk, a microsecond later than the first, is never fed. -/
theorem no_end_at_quarter_speed :
    let s : Settings := { timing := { speed := 0.25, tickRate := 1000000000 } }
    let recording : Recording := [⟨.zero, [0x61]⟩, ⟨.ofSeconds 0 1000, [0x62]⟩]
    s.check = .ok () ∧ ∃ p, s.playback recording = .ok p ∧ ¬p.Ends s.tickLength := by
  intro s recording
  have hs : s.check = .ok () := check_eq_ok_iff.mpr (by decide)
  have hpace : (s.tickLength.scaled s.timing.speed).nanoseconds = 0 := by decide
  have hread : (readTokens [0x61]).2 = [] :=
    (readTokens_run [0x61]).2.trans (congrArg Prod.snd (readTokens_of_none nextToken_nil))
  have hfree : (s.freshPlayback recording).nextStuck = none := by
    show (if s.stream.maxPending < (readTokens [0x61]).2.length then
      some (StuckInput.mk (readTokens [0x61]).2) else none).map (Corrupt.mk 0) = none
    rw [hread]
    rfl
  refine ⟨hs, _, playback_eq hs recording, Playback.Blocked.not_ends rfl rfl hpace ⟨1, ?_, ?_⟩⟩
  · decide
  · intro k hk
    obtain rfl := Nat.lt_one_iff.mp hk
    exact hfree

end Settings

end TermReplay

import TermReplay.CommandLine.Session
import TermReplay.Proofs.RecordingFrames
import TermReplay.Proofs.RunningToEnd

/-!
What a recording comes to is what its payloads come to, fed at once. When the chunks were
captured, how fast they are played, how many are fed in a tick and where the payloads are cut has
no part in it.
-/

namespace TermReplay

namespace Recording

def payload (recording : Recording) : List UInt8 := recording.flatMap (·.data)

/-- Bytes that are headers and payloads in turn, each payload as long as its header says, and the
payloads joined. -/
inductive Framed : List UInt8 → List UInt8 → Prop
  | done : Framed [] []
  | chunk {header data rest joined : List UInt8} (hheader : header.length = headerLength)
      (hdata : data.length = wordOf (header.drop 8)) (hrest : Framed rest joined) :
      Framed (header ++ (data ++ rest)) (data ++ joined)

theorem payload_cons (chunk : Chunk) (recording : Recording) :
    payload (chunk :: recording) = chunk.data ++ payload recording := List.flatMap_cons

theorem framed_frames (frames : List Frame) :
    Framed (frames.flatMap Frame.bytes) (payload (frames.map Frame.chunk)) := by
  induction frames with
  | nil => exact .done
  | cons f frames ih =>
      have hbytes : (f :: frames).flatMap Frame.bytes =
          wordBytes f.seconds ++ wordBytes f.microseconds ++ wordBytes f.data.length ++
            (f.data ++ frames.flatMap Frame.bytes) := by
        rw [List.flatMap_cons, Frame.bytes, List.append_assoc]
      rw [hbytes, List.map_cons, payload_cons]
      exact .chunk rfl (wordOf_wordBytes f.length_le).symm ih

theorem decodeFrom_framed {offset : Nat} {bytes : List UInt8} {recording : Recording}
    (h : decodeFrom offset bytes = .ok recording) : Framed bytes recording.payload := by
  obtain ⟨frames, rfl⟩ := exists_frames_of_decodeFrom h
  obtain rfl := Except.ok.inj (h.symm.trans (decodeFrom_frames offset frames))
  exact framed_frames frames

end Recording

@[simp] theorem Played.andThen_player (played : Played) (f : Player → Played) :
    (played.andThen f).player = (f played.player).player := rfl

@[simp] theorem Played.andThen_notices (played : Played) (f : Player → Played) :
    (played.andThen f).notices = played.notices ++ (f played.player).notices := rfl

namespace Player

def Unstuck (p : Player) : Prop := p.stream.pending.length ≤ p.stream.limit

theorem feed_stuck_iff (p : Player) (bytes : List UInt8) :
    (p.feed bytes).stuck = none ↔ (p.feed bytes).player.Unstuck := by
  simp only [feed, ByteStream.feed, Unstuck]
  split
  · next h => exact iff_of_false (Option.some_ne_none _) (Nat.not_le.mpr h)
  · next h => exact iff_of_true rfl (Nat.not_lt.mp h)

/-- With nothing waiting there is nothing to read in no bytes. -/
theorem feed_nil {p : Player} (h : p.stream.pending = []) :
    (p.feed []).player = p ∧ (p.feed []).notices = [] := by
  have hread : readTokens (p.stream.pending ++ []) = ([], []) := by
    rw [h]
    exact readTokens_of_none nextToken_nil
  obtain ⟨⟨pending, limit⟩, terminal⟩ := p
  cases h
  simp only [feed, ByteStream.feed, hread]
  exact ⟨rfl, rfl⟩

end Player

namespace Playback

variable {p : Playback} {told : List Notice} {origin : Player} {recording : Recording}

/-- The player of a playback, and all that it told, come of the payloads of the chunks before the
position, fed at once. -/
structure FedTo (p : Playback) (told : List Notice) (origin : Player) (recording : Recording) :
    Prop where
  chunks_eq : p.chunks.toList = recording
  player_eq : p.player = (origin.feed (Recording.payload (recording.take p.next))).player
  told_eq : told = (origin.feed (Recording.payload (recording.take p.next))).notices

/-- Feeding a chunk after the ones before it is feeding all of them at once. -/
theorem FedTo.feedNext (h : p.FedTo told origin recording) :
    p.feedNext.1.FedTo (told ++ p.feedNext.2.1) origin recording := by
  simp only [Playback.feedNext]
  split
  · rwa [List.append_nil]
  · next chunk hchunk =>
      have hget : recording[p.next]? = some chunk := by
        rw [← h.chunks_eq, Array.getElem?_toList, hchunk]
      have hpayload : Recording.payload (recording.take (p.next + 1)) =
          Recording.payload (recording.take p.next) ++ chunk.data := by
        rw [List.take_add_one, hget]
        simp [Recording.payload]
      refine ⟨h.chunks_eq, ?_, ?_⟩
      · simp only [hpayload, Player.feed_append, Played.andThen_player, ← h.player_eq]
      · simp only [hpayload, Player.feed_append, Played.andThen_notices, ← h.player_eq,
          ← h.told_eq]

theorem FedTo.feedWhile (h : p.FedTo told origin recording) (condition : Playback → Bool)
    (budget : Nat) :
    (feedWhile condition budget p).playback.FedTo
      (told ++ (Playback.feedWhile condition budget p).notices) origin recording := by
  induction budget generalizing p told with
  | zero => simpa [Playback.feedWhile] using h
  | succ budget ih =>
      rw [Playback.feedWhile]
      split
      · have hnext := h.feedNext
        rcases hfed : p.feedNext with ⟨q, notices, stuck⟩
        rw [hfed] at hnext
        cases stuck with
        | some e => exact hnext
        | none =>
            have hrest := ih hnext
            rwa [List.append_assoc] at hrest
      · simpa using h

theorem feedNext_unstuck (h : p.player.Unstuck) (hok : p.feedNext.2.2 = none) :
    p.feedNext.1.player.Unstuck := by
  simp only [feedNext] at hok ⊢
  split at hok
  · exact h
  · next chunk hchunk => exact (Player.feed_stuck_iff ..).mp (Option.map_eq_none_iff.mp hok)

theorem feedWhile_unstuck (h : p.player.Unstuck) {condition : Playback → Bool} {budget : Nat}
    {count : Nat} (hok : (feedWhile condition budget p).result = .ok count) :
    (feedWhile condition budget p).playback.player.Unstuck := by
  induction budget generalizing p count with
  | zero => exact h
  | succ budget ih =>
      rw [feedWhile] at hok ⊢
      split at hok
      · next hc =>
          rw [if_pos hc]
          have hnext := feedNext_unstuck h
          rcases hfed : p.feedNext with ⟨q, notices, stuck⟩
          rw [hfed] at hnext hok
          cases stuck with
          | some e => cases hok
          | none =>
              cases hrest : (feedWhile condition budget q).result with
              | error e =>
                  simp only [hrest] at hok
                  cases hok
              | ok more => exact ih (hnext rfl) hrest
      · next hc =>
          rw [if_neg hc]
          exact h

theorem FedTo.advance (h : p.FedTo told origin recording) (time : Duration) :
    (p.advance time).playback.FedTo (told ++ (p.advance time).notices) origin recording := by
  have hmoved : { p with clock := p.clock.add time }.FedTo told origin recording := { h with }
  exact hmoved.feedWhile isDue p.chunksPerTick

theorem advance_unstuck (h : p.player.Unstuck) {time : Duration} {count : Nat}
    (hok : (p.advance time).result = .ok count) :
    (p.advance time).playback.player.Unstuck := by
  have hmoved : { p with clock := p.clock.add time }.player.Unstuck := h
  exact feedWhile_unstuck hmoved hok

end Playback

namespace Run

variable {r next : Run} {origin : Player} {kept : History} {recording : Recording}
  {time : Duration}

/-- The playback of a run is where its payloads lead, and the history is what was kept of all it
told. -/
def Follows (r : Run) (origin : Player) (kept : History) (recording : Recording) : Prop :=
  ∃ told, r.playback.FedTo told origin recording ∧ r.history = told.foldl History.watch kept

/-- A tick leads on from where the payloads led, and its lines go to the history. -/
theorem Follows.tick (h : r.Follows origin kept recording) (time : Duration) :
    (r.tick time).1.Follows origin kept recording := by
  obtain ⟨told, hfed, hhistory⟩ := h
  have hnext := hfed.advance time
  rcases hadvance : r.playback.advance time with ⟨playback, notices, result⟩
  rw [hadvance] at hnext
  have hwatched : notices.foldl History.watch r.history =
      (told ++ notices).foldl History.watch kept := by
    rw [List.foldl_append, hhistory]
  rw [Run.tick, hadvance]
  cases result <;> exact ⟨told ++ notices, hnext, hwatched⟩

theorem tick_unstuck (h : r.playback.player.Unstuck) (hok : (r.tick time).2 = none) :
    (r.tick time).1.playback.player.Unstuck := by
  have hfed : ∀ count, (r.playback.advance time).result = .ok count →
      (r.playback.advance time).playback.player.Unstuck :=
    fun _ => Playback.advance_unstuck h
  rcases hadvance : r.playback.advance time with ⟨playback, notices, result⟩
  rw [hadvance] at hfed
  rw [Run.tick, hadvance] at hok ⊢
  cases result with
  | error e => cases hok
  | ok count => exact hfed count rfl

/-- The run to the end keeps what each of its ticks keeps. -/
theorem Follows.toEnd (h : r.Follows origin kept recording) (time : Duration) :
    (r.toEnd time).1.Follows origin kept recording := by
  fun_induction Run.toEnd time r with
  | case1 => exact h
  | case2 r _ after e htick =>
      have hafter := h.tick time
      rwa [htick] at hafter
  | case3 r _ after htick =>
      rename_i ih
      have hafter := h.tick time
      rw [htick] at hafter
      exact ih hafter
  | case4 r _ after htick =>
      have hafter := h.tick time
      rwa [htick] at hafter

theorem toEnd_finished (h : r.playback.player.Unstuck) (hend : r.toEnd time = (next, .finished)) :
    next.playback.isFinished = true ∧ next.playback.player.Unstuck := by
  fun_induction Run.toEnd time r with
  | case1 r hfinished =>
      cases hend
      exact ⟨hfinished, h⟩
  | case2 => cases hend
  | case3 r _ after htick =>
      rename_i ih
      have hafter : (r.tick time).1.playback.player.Unstuck := tick_unstuck h (by rw [htick])
      rw [htick] at hafter
      exact ih hafter hend
  | case4 => cases hend

theorem toEnd_tick (hf : r.playback.isFinished = false) (hok : (r.tick time).2 = none)
    (hm : movedOn r.playback (r.tick time).1.playback = true) :
    r.toEnd time = (r.tick time).1.toEnd time :=
  toEnd_of_movedOn hf (Prod.ext rfl hok) hm

/-- A run that finishes ends where all payloads together lead. -/
theorem Follows.finished (h : r.Follows origin kept recording)
    (hstart : r.playback.player.Unstuck) (hend : r.toEnd time = (next, .finished)) :
    next.playback.player = (origin.feed recording.payload).player ∧
      next.history = (origin.feed recording.payload).notices.foldl History.watch kept ∧
      (origin.feed recording.payload).stuck = none := by
  obtain ⟨hfinished, hunstuck⟩ := toEnd_finished hstart hend
  have hfollows := h.toEnd time
  rw [hend] at hfollows
  obtain ⟨told, hfed, hhistory⟩ := hfollows
  have hall : recording.take next.playback.next = recording := by
    rw [Playback.isFinished_eq_true, ← Array.length_toList, hfed.chunks_eq] at hfinished
    exact List.take_of_length_le hfinished
  obtain ⟨-, hplayer, htold⟩ := hfed
  rw [hall] at hplayer htold
  refine ⟨hplayer, by rw [hhistory, htold], ?_⟩
  rw [Player.feed_stuck_iff, ← hplayer]
  exact hunstuck

/-- A run of one chunk that leaves nothing stuck finishes, at whatever speed. -/
theorem toEnd_single {chunk : Chunk} (hchunks : r.playback.chunks = #[chunk])
    (hstart : r.playback.next = 0) (hbudget : 0 < r.playback.chunksPerTick)
    (hread : (r.playback.player.feed chunk.data).stuck = none) (elapsed : Duration) :
    (r.toEnd (r.playback.pace elapsed)).2 = .finished := by
  have hsize : r.playback.chunks.size = 1 := by
    rw [hchunks]
    rfl
  have hunfinished : r.playback.isFinished = false :=
    Playback.isFinished_eq_false.mpr (by omega)
  have hget : r.playback.chunks[r.playback.next]? = some chunk := by
    rw [hchunks, hstart]
    rfl
  obtain ⟨count, hplays⟩ := Playback.tick_plays (p := r.playback) elapsed (by omega)
  have hinside : r.playback.next + count ≤ r.playback.chunks.size := hplays.inside
  have hstuck : (r.playback.later elapsed).nextStuck = none := by
    simp only [Playback.nextStuck, Playback.feedNext, Playback.later, hget, hread]
    rfl
  have hdue : (r.playback.later elapsed).isDue = true := by
    have hoffset : (r.playback.later elapsed).offset r.playback.next = .zero := by
      apply Duration.eq_of_nanoseconds
      simp [Playback.offset, Playback.later, hchunks, hstart, Duration.since,
        Duration.ofNanoseconds, Duration.zero]
    refine Playback.isDue_eq_true.mpr ⟨Playback.isFinished_eq_false.mp hunfinished, ?_⟩
    exact hoffset ▸ Nat.zero_le _
  have hresult : (r.playback.tick elapsed).result = .ok count := by
    obtain ⟨hok, -⟩ | ⟨e, last, -, hlast, hcorrupt, -⟩ := hplays.outcome
    · exact hok
    · obtain rfl : last = 0 := by omega
      rw [Playback.played_zero, hstuck] at hcorrupt
      cases hcorrupt
  have hpos := hplays.count_pos hresult hbudget hdue
  obtain ⟨after, htick, hplayback⟩ := r.tick_eq elapsed
  rw [hresult] at htick
  rw [hplays.playback_eq] at hplayback
  have hmoved : movedOn r.playback after.playback = true := by
    rw [hplayback]
    exact Playback.movedOn_of_count_pos elapsed hpos hinside
  have hfinished : after.playback.isFinished = true := by
    rw [hplayback, Playback.isFinished_eq_true]
    show r.playback.chunks.size ≤ r.playback.next + count
    omega
  rw [toEnd_of_movedOn hunfinished htick hmoved, Run.toEnd, if_pos hfinished]

end Run

structure Run.Fresh (r : Run) (player : Player) (recording : Recording) (kept : History) :
    Prop where
  chunks_eq : r.playback.chunks = recording.toArray
  player_eq : r.playback.player = player
  next_eq : r.playback.next = 0
  budget_pos : 0 < r.playback.chunksPerTick
  history_eq : r.history = kept

theorem Run.Fresh.follows {r : Run} {player : Player} {recording : Recording} {kept : History}
    (h : r.Fresh player recording kept) (hp : player.stream.pending = []) :
    r.Follows player kept recording := by
  obtain ⟨hplayer, hnotices⟩ := Player.feed_nil hp
  refine ⟨[], ⟨?_, ?_, ?_⟩, h.history_eq⟩
  · rw [h.chunks_eq]
  · rw [h.player_eq, h.next_eq]
    exact hplayer.symm
  · rw [h.next_eq]
    exact hnotices.symm

namespace Settings

variable {s raw : Settings} {recording : Recording} {r : Run}

/-- A new player has nothing waiting. -/
theorem pending_of_player {player : Player} (h : s.player = .ok player) :
    player.stream.pending = [] := by
  rw [Settings.player, Terminal.create] at h
  split at h <;> cases h
  rfl

theorem run_of_player {player : Player} (h : s.player = .ok player) (recording : Recording) :
    ∃ start : Run, s.run recording = .ok (start.toEnd (start.playback.pace s.tickLength)) ∧
      start.Fresh player recording (History.create s.terminal.historyLines) := by
  have hplayback : s.playback recording =
      .ok ((Playback.create player recording s.timing.chunksPerTick).setSpeed s.timing.speed) := by
    rw [Settings.playback, h]
    rfl
  obtain ⟨speed, hspeed⟩ : ∃ speed,
      (Playback.create player recording s.timing.chunksPerTick).setSpeed s.timing.speed =
        { Playback.create player recording s.timing.chunksPerTick with speed } := by
    rw [Playback.setSpeed]
    split <;> exact ⟨_, rfl⟩
  rw [Settings.run, hplayback, hspeed]
  exact ⟨{
    playback := { Playback.create player recording s.timing.chunksPerTick with speed }
    repaint := Repaint.create s.terminal.columns s.terminal.rows
    history := History.create s.terminal.historyLines }, rfl, rfl, rfl, rfl,
      Nat.le_max_right .., rfl⟩

/-- A run that finishes shows what the payloads come to, fed at once to a new player. -/
theorem run_finished (h : s.run recording = .ok (r, .finished)) :
    ∃ player, s.player = .ok player ∧
      r.playback.player = (player.feed recording.payload).player ∧
      r.history = (player.feed recording.payload).notices.foldl History.watch
        (History.create s.terminal.historyLines) ∧
      (player.feed recording.payload).stuck = none := by
  cases hplayer : s.player with
  | error e =>
      rw [Settings.run, Settings.playback, hplayer] at h
      cases h
  | ok player =>
      have hpending := pending_of_player hplayer
      obtain ⟨start, hrun, hfresh⟩ := run_of_player hplayer recording
      have hunstuck : start.playback.player.Unstuck := by
        rw [hfresh.player_eq, Player.Unstuck, hpending]
        exact Nat.zero_le _
      rw [h] at hrun
      exact ⟨player, rfl, (hfresh.follows hpending).finished hunstuck (Except.ok.inj hrun).symm⟩

/-- Bytes that leave nothing stuck are a recording of one chunk that finishes. -/
theorem run_single {player : Player} (h : s.player = .ok player) {data : List UInt8}
    (hread : (player.feed data).stuck = none) :
    ∃ r, s.run [⟨.zero, data⟩] = .ok (r, .finished) := by
  obtain ⟨start, hrun, hfresh⟩ := run_of_player h [⟨.zero, data⟩]
  have hend : (start.toEnd (start.playback.pace s.tickLength)).2 = .finished :=
    Run.toEnd_single hfresh.chunks_eq hfresh.next_eq hfresh.budget_pos
      (hfresh.player_eq ▸ hread) s.tickLength
  exact ⟨_, hrun.trans (congrArg Except.ok (Prod.ext rfl hend))⟩

/-- Without the frames, what is printed of a run that finished depends on its terminal and its
history. -/
theorem play_finished {recording' : Recording} {r' : Run} (h : s.run recording = .ok (r, .finished))
    (h' : raw.run recording' = .ok (r', .finished))
    (hplayer : r'.playback.player = r.playback.player) (hhistory : r'.history = r.history)
    {options : CommandLine.Options} (hframes : options.frames = false) :
    CommandLine.play { options with raw := true } raw recording' =
      CommandLine.play options s recording := by
  simp only [CommandLine.play, h, h', hframes, CommandLine.finalText, hplayer, hhistory,
    Bool.false_eq_true, if_false]

/-- A recording whose run finishes without error ends as the raw run of its payloads does, all
of them one chunk at time zero, if terminal and stream are set alike: that run finishes too, and
leaves the same terminal, the same bytes waiting and the same history, so that without the frames
the same is printed. The times of the chunks, the speed, the length of a tick and how many chunks
it may feed differ as they like, and so do the cuts between the payloads. -/
theorem outcome_of_payload {bytes : List UInt8} (hd : Recording.decode bytes = .ok recording)
    (hterminal : raw.terminal = s.terminal) (hstream : raw.stream = s.stream)
    (h : s.run recording = .ok (r, .finished)) :
    Recording.Framed bytes recording.payload ∧
      ∃ r', raw.run [⟨.zero, recording.payload⟩] = .ok (r', .finished) ∧
        r'.playback.player = r.playback.player ∧ r'.history = r.history ∧
        ∀ options : CommandLine.Options, options.frames = false →
          CommandLine.play { options with raw := true } raw [⟨.zero, recording.payload⟩] =
            CommandLine.play options s recording := by
  obtain ⟨player, hplayer, hend, hkept, hread⟩ := run_finished h
  have hraw : raw.player = .ok player := by
    rw [← hplayer, Settings.player, Settings.player, hterminal, hstream]
  obtain ⟨r', hrun⟩ := run_single hraw hread
  obtain ⟨player', hplayer', hend', hkept', -⟩ := run_finished hrun
  obtain rfl : player' = player := Except.ok.inj (hplayer'.symm.trans hraw)
  have hpayload : Recording.payload [⟨.zero, recording.payload⟩] = recording.payload :=
    List.append_nil _
  rw [hpayload] at hend' hkept'
  have hsame : r'.playback.player = r.playback.player := hend'.trans hend.symm
  have hhistory : r'.history = r.history := by rw [hkept', hkept, hterminal]
  exact ⟨Recording.decodeFrom_framed hd, r', hrun, hsame, hhistory,
    fun _ => play_finished h hrun hsame hhistory⟩

theorem ok_of_toOption {ε α : Type} {e : Except ε α} {a : α} (h : e.toOption = some a) :
    e = .ok a := by
  cases e <;> cases h
  rfl

/-- The second chunk is of before the first, and a sequence is cut between the two. -/
theorem outcome_of_cut_sequence :
    let s : Settings :=
      { terminal := { columns := 4, rows := 2 }
        timing := { chunksPerTick := 1, speed := 2.5, tickRate := 50 } }
    let raw : Settings := { s with timing := {} }
    let recording : Recording :=
      [⟨.ofSeconds 5 0, [0x61, 0x1b]⟩, ⟨.zero, [0x5b, 0x37, 0x6d, 0x62]⟩]
    Recording.decode (Recording.encode recording) = .ok recording ∧
      ∃ r r' : Run, s.run recording = .ok (r, .finished) ∧
        raw.run [⟨.zero, [0x61, 0x1b, 0x5b, 0x37, 0x6d, 0x62]⟩] = .ok (r', .finished) ∧
        r'.playback.player = r.playback.player ∧ r'.history = r.history := by
  intro s raw recording
  have hd : Recording.decode (Recording.encode recording) = .ok recording :=
    ok_of_toOption (by decide +kernel)
  let start : Run :=
    { playback := s.freshPlayback recording
      repaint := Repaint.create 4 2
      history := History.create 1000 }
  let time := (s.freshPlayback recording).pace s.tickLength
  let second := (start.tick time).1
  have hfirst : start.toEnd time = second.toEnd time :=
    Run.toEnd_tick (by decide +kernel) (by decide +kernel) (by decide +kernel)
  have hsecond : second.toEnd time = (second.tick time).1.toEnd time :=
    Run.toEnd_tick (by decide +kernel) (by decide +kernel) (by decide +kernel)
  have hfinished : (second.tick time).1.playback.isFinished = true := by decide +kernel
  have hrun : s.run recording = .ok ((second.tick time).1, .finished) := by
    have hs : s.check = .ok () := check_eq_ok_iff.mpr (by decide +kernel)
    rw [Settings.run, playback_eq hs]
    show Except.ok (start.toEnd time) = _
    rw [hfirst, hsecond, Run.toEnd, if_pos hfinished]
  have hterminal : raw.terminal = s.terminal := rfl
  have hstream : raw.stream = s.stream := rfl
  obtain ⟨-, r', hraw, hsame, hhistory, -⟩ := outcome_of_payload hd hterminal hstream hrun
  exact ⟨hd, _, r', hrun, hraw, hsame, hhistory⟩

end Settings

end TermReplay

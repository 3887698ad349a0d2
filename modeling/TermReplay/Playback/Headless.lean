import TermReplay.Playback.Basic
import TermReplay.Playback.Settings
import TermReplay.Watch.History
import TermReplay.Watch.Repaint

/-!
Playing a recording to its end without waiting: ticks of equal length follow one another, and
after each the watchers are asked what has to be painted. A run whose ticks are too short to move
the clock stops there.
-/

namespace TermReplay

namespace Settings

def player (s : Settings) : Except TooSmall Player := do
  let terminal ← Terminal.create s.terminal.columns s.terminal.rows s.terminal.savedCursors
  return { stream := { limit := s.stream.maxPending }, terminal }

def playback (s : Settings) (recording : Recording) : Except TooSmall Playback := do
  let player ← s.player
  return (Playback.create player recording s.timing.chunksPerTick).setSpeed s.timing.speed

/-- The length of a tick: the second is divided into whole nanoseconds. -/
def tickLength (s : Settings) : Duration := Duration.ofNanoseconds (second / s.timing.tickRate)

end Settings

/-- What was to be painted after a tick; ticks are counted from one. -/
structure Frame where
  tick : Nat
  spans : List Span
  deriving DecidableEq, Repr

inductive Ending
  | finished
  | corrupt (error : Corrupt)
  /-- The clock does not move and the next chunk is not due. -/
  | stalled
  deriving DecidableEq, Repr

/-- A playback under way, with its watchers and the frames so far, newest first. -/
structure Run where
  playback : Playback
  repaint : Repaint
  history : History
  ticks : Nat := 0
  frames : List Frame := []

namespace Run

def tick (r : Run) (time : Duration) : Run × Option Corrupt :=
  match r.playback.advance time with
  | ⟨playback, notices, result⟩ =>
    let repaint := notices.foldl Repaint.watch r.repaint
    let history := notices.foldl History.watch r.history
    match result with
    | .error e => ({ r with playback, repaint, history }, some e)
    | .ok _ =>
      let ticks := r.ticks + 1
      let (spans, repaint) := repaint.take
      let frames := if spans.isEmpty then r.frames else ⟨ticks, spans⟩ :: r.frames
      ({ playback, repaint, history, ticks, frames }, none)

/-- Whether a tick brought the playback on: a chunk was fed, or the clock moved. -/
def movedOn (before after : Playback) : Bool :=
  after.chunks.size - after.next < before.chunks.size - before.next ||
    (after.chunks.size - after.next == before.chunks.size - before.next &&
      before.clock.nanoseconds < after.clock.nanoseconds)

/-- What is ahead of a playback: the chunks left, and the time left on the clock. -/
def ahead (p : Playback) : Nat × Nat :=
  (p.chunks.size - p.next, Number.twoTo 64 * second - p.clock.nanoseconds)

theorem ahead_lt_of_movedOn {before after : Playback} (h : movedOn before after = true) :
    Prod.Lex (· < ·) (· < ·) (ahead after) (ahead before) := by
  simp only [movedOn, Bool.or_eq_true, Bool.and_eq_true, decide_eq_true_eq, beq_iff_eq] at h
  rcases h with h | ⟨h, h'⟩
  · exact Prod.Lex.left _ _ h
  · have := after.clock.le_longest
    have : 0 < Number.twoTo 64 * second := Nat.mul_pos (Number.twoTo_pos 64) (by decide)
    simp only [ahead, h]
    exact Prod.Lex.right _ (by omega)

def toEnd (time : Duration) (r : Run) : Run × Ending :=
  if r.playback.isFinished then (r, .finished)
  else
    match r.tick time with
    | (next, some e) => (next, .corrupt e)
    | (next, none) =>
      if h : movedOn r.playback next.playback = true then
        have := ahead_lt_of_movedOn h
        toEnd time next
      else (next, .stalled)
  termination_by ahead r.playback
  decreasing_by assumption

end Run

def Settings.run (s : Settings) (recording : Recording) : Except TooSmall (Run × Ending) := do
  let playback ← s.playback recording
  let start : Run :=
    { playback
      repaint := Repaint.create s.terminal.columns s.terminal.rows
      history := History.create s.terminal.historyLines }
  return start.toEnd (playback.pace s.tickLength)

end TermReplay

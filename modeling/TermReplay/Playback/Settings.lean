import TermReplay.Check
import TermReplay.Playback.Duration

/-!
Settings of a playback, each with its default, and what settings have to be before they are used.
-/

namespace TermReplay

structure TerminalSettings where
  columns : Nat := 80
  rows : Nat := 24
  /-- Saved cursors kept. -/
  savedCursors : Nat := 64
  /-- Lines of history kept. -/
  historyLines : Nat := 1000
  deriving BEq, Repr

structure StreamSettings where
  /-- Bytes that may wait for the rest of a token. -/
  maxPending : Nat := 1024
  deriving BEq, Repr

structure TimingSettings where
  /-- Chunks fed in one tick at most. -/
  chunksPerTick : Nat := 60
  /-- Seconds of recording in a second of playback. -/
  speed : Float := 1.0
  /-- Ticks in a second. -/
  tickRate : Nat := 60
  deriving BEq, Repr

structure Settings where
  terminal : TerminalSettings := {}
  stream : StreamSettings := {}
  timing : TimingSettings := {}
  deriving BEq, Repr

inductive InvalidSetting
  | columns
  | rows
  | savedCursors
  | maxPending
  | chunksPerTick
  | speed
  | tickRate
  deriving DecidableEq, Repr

def InvalidSetting.message : InvalidSetting → String
  | .columns => "invalid config: terminal.columns must be at least 1"
  | .rows => "invalid config: terminal.rows must be at least 2"
  | .savedCursors => "invalid config: terminal.cursor_stack_depth must be at least 1"
  | .maxPending => "invalid config: parser.max_pending_bytes must be at least 16"
  | .chunksPerTick => "invalid config: replay.max_records_per_tick must be at least 1"
  | .speed => "invalid config: replay.speed must be a positive number"
  | .tickRate => "invalid config: replay.tick_rate must be at least 1"

/-- The first setting that makes no sense is told. -/
def Settings.check (s : Settings) : Except InvalidSetting Unit := do
  require (1 ≤ s.terminal.columns) .columns
  require (2 ≤ s.terminal.rows) .rows
  require (1 ≤ s.terminal.savedCursors) .savedCursors
  require (16 ≤ s.stream.maxPending) .maxPending
  require (1 ≤ s.timing.chunksPerTick) .chunksPerTick
  require (isForward s.timing.speed) .speed
  require (1 ≤ s.timing.tickRate) .tickRate

end TermReplay

import TermReplay.Playback.Player
import TermReplay.Playback.Recording

/-!
Playback of a recording on a clock that the caller moves. A tick moves the clock and feeds the
chunks that are due by then, at most so many; the offset of a chunk is its time since the first
one. Position and terminal move together: also a chunk that leaves the stream stuck was fed.
-/

namespace TermReplay

structure Bookmark where
  frozen : Frozen
  next : Nat
  clock : Duration
  deriving DecidableEq, Repr

structure Corrupt where
  index : Nat
  stuck : StuckInput
  deriving DecidableEq, Repr

def Corrupt.message (e : Corrupt) : String :=
  "record " ++ toString e.index ++ " left the parser stuck: " ++ e.stuck.message

structure Playback where
  player : Player
  chunks : Array Chunk
  /-- The state the playback started from. -/
  start : Frozen
  /-- The index of the chunk to feed next. -/
  next : Nat
  /-- The time reached, since the first chunk. -/
  clock : Duration
  speed : Float
  chunksPerTick : Nat

/-- What feeding some chunks came to: how many there were, or the one that was corrupt. -/
structure Fed where
  playback : Playback
  /-- Oldest first. -/
  notices : List Notice
  result : Except Corrupt Nat

namespace Playback

def create (player : Player) (recording : Recording) (chunksPerTick : Nat) : Playback :=
  { player
    chunks := recording.toArray
    start := player.freeze
    next := 0
    clock := .zero
    speed := 1.0
    chunksPerTick := max chunksPerTick 1 }

def isFinished (p : Playback) : Bool := p.chunks.size ≤ p.next

/-- Speeds that do not go forward are ignored. -/
def setSpeed (p : Playback) (speed : Float) : Playback :=
  if isForward speed then { p with speed } else p

/-- At least one chunk is fed in a tick if it is due. -/
def setChunksPerTick (p : Playback) (count : Nat) : Playback :=
  { p with chunksPerTick := max count 1 }

/-- The time of a chunk since the first one; chunks of before count as simultaneous with it. -/
def offset (p : Playback) (index : Nat) : Duration :=
  match p.chunks[index]?, p.chunks[0]? with
  | some chunk, some first => chunk.time.since first.time
  | _, _ => .zero

def isDue (p : Playback) : Bool := !p.isFinished && p.offset p.next ≤ p.clock

/-- Feeds the next chunk and counts it as played, stuck or not. -/
def feedNext (p : Playback) : Playback × List Notice × Option Corrupt :=
  match p.chunks[p.next]? with
  | none => (p, [], none)
  | some chunk =>
    let played := p.player.feed chunk.data
    ({ p with player := played.player, next := p.next + 1 }, played.notices,
      played.stuck.map fun stuck => ⟨p.next, stuck⟩)

def feedWhile (condition : Playback → Bool) : Nat → Playback → Fed
  | 0, p => ⟨p, [], .ok 0⟩
  | budget + 1, p =>
    if condition p then
      match p.feedNext with
      | (p, notices, some e) => ⟨p, notices, .error e⟩
      | (p, notices, none) =>
        match feedWhile condition budget p with
        | ⟨p, more, result⟩ => ⟨p, notices ++ more, result.map (· + 1)⟩
    else ⟨p, [], .ok 0⟩

def advance (p : Playback) (time : Duration) : Fed :=
  feedWhile isDue p.chunksPerTick { p with clock := p.clock.add time }

/-- How far an elapsed time moves the clock. -/
def pace (p : Playback) (elapsed : Duration) : Duration := elapsed.scaled p.speed

def tick (p : Playback) (elapsed : Duration) : Fed := p.advance (p.pace elapsed)

/-- Sets the clock to the time of the last chunk, unless it is later already. -/
def catchUp (p : Playback) : Playback :=
  if p.chunks.isEmpty then p
  else { p with clock := p.clock.latest (p.offset (p.chunks.size - 1)) }

/-- Feeds every chunk that is left, due or not. The clock follows if all could be read. -/
def runToEnd (p : Playback) : Fed :=
  match feedWhile (!·.isFinished) (p.chunks.size - p.next) p with
  | ⟨p, notices, .ok count⟩ => ⟨p.catchUp, notices, .ok count⟩
  | fed => fed

def rewind (p : Playback) : Playback × List Notice :=
  let (player, notices) := p.player.thaw p.start
  ({ p with player, next := 0, clock := .zero }, notices)

def bookmark (p : Playback) : Bookmark := ⟨p.player.freeze, p.next, p.clock⟩

/-- Goes to a bookmark; its position is cut to the chunks there are. -/
def restore (p : Playback) (mark : Bookmark) : Playback × List Notice :=
  let (player, notices) := p.player.thaw mark.frozen
  ({ p with player, next := min mark.next p.chunks.size, clock := mark.clock }, notices)

def feed (p : Playback) (bytes : List UInt8) : Playback × List Notice × Option StuckInput :=
  let played := p.player.feed bytes
  ({ p with player := played.player }, played.notices, played.stuck)

end Playback

end TermReplay

import TermReplay.Control.Stream
import TermReplay.Terminal.Obey

/-!
A player: a byte stream whose commands a terminal obeys. Freezing takes both apart from what is
not state, the limit of the stream, and thawing puts them back.
-/

namespace TermReplay

structure Player where
  stream : ByteStream
  terminal : Terminal
  deriving DecidableEq, Repr

structure Frozen where
  pending : List UInt8
  terminal : Terminal
  deriving DecidableEq, Repr

structure Played where
  player : Player
  /-- Oldest first. -/
  notices : List Notice
  stuck : Option StuckInput
  deriving DecidableEq, Repr

namespace Player

/-- The terminal obeys everything that the bytes complete, also when the rest is stuck. -/
def feed (p : Player) (bytes : List UInt8) : Played :=
  let d := p.stream.feed bytes
  let r := p.terminal.followAll d.outputs
  { player := { stream := d.stream, terminal := r.terminal }
    notices := r.notices
    stuck := d.stuck }

def freeze (p : Player) : Frozen := ⟨p.stream.pending, p.terminal⟩

def thaw (p : Player) (f : Frozen) : Player × List Notice :=
  let r := p.terminal.replaceWith f.terminal
  ({ stream := p.stream.resume f.pending, terminal := r.terminal }, r.notices)

end Player

end TermReplay

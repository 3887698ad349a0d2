import TermReplay.Control.Token

/-!
A byte stream cut into tokens. Bytes that only begin a token are kept for the next call, so the
cuts between calls do not matter to what is read; a stream that keeps more than its limit is
stuck, and says so after everything before the stuck bytes was delivered.
-/

namespace TermReplay

/-- All outputs of the tokens at the front of a buffer, and the bytes in front of which no token
is complete. -/
def readTokens (buffer : List UInt8) : List Output × List UInt8 :=
  match h : nextToken buffer with
  | none => ([], buffer)
  | some token =>
    have := length_drop_nextToken h
    let (outputs, rest) := readTokens (buffer.drop token.length)
    (token.outputs ++ outputs, rest)
  termination_by buffer.length
  decreasing_by assumption

structure ByteStream where
  pending : List UInt8 := []
  limit : Nat := 1024
  deriving DecidableEq, Repr

structure StuckInput where
  pending : List UInt8
  deriving DecidableEq, Repr

def StuckInput.message (e : StuckInput) : String :=
  "stuck on " ++ toString e.pending.length ++ " unmatched bytes: " ++
    Text.escapeBytes e.pending

structure Delivery where
  outputs : List Output
  stream : ByteStream
  stuck : Option StuckInput
  deriving DecidableEq, Repr

namespace ByteStream

/-- Reads every token that `bytes` complete. The limit is checked last. -/
def feed (s : ByteStream) (bytes : List UInt8) : Delivery :=
  let (outputs, rest) := readTokens (s.pending ++ bytes)
  { outputs
    stream := { s with pending := rest }
    stuck := if s.limit < rest.length then some ⟨rest⟩ else none }

def reset (s : ByteStream) : ByteStream := { s with pending := [] }

def resume (s : ByteStream) (pending : List UInt8) : ByteStream := { s with pending }

end ByteStream

def Output.command? : Output → Option Command
  | .command c => some c
  | .warning _ => none

namespace ByteStream

/-- The commands that `bytes` complete. A stuck stream gives none, not even those it read. -/
def commands (s : ByteStream) (bytes : List UInt8) :
    ByteStream × Except StuckInput (List Command) :=
  let d := s.feed bytes
  (d.stream,
    match d.stuck with
    | some e => .error e
    | none => .ok (d.outputs.filterMap Output.command?))

end ByteStream

end TermReplay

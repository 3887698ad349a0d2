import TermReplay.Number.Power
import TermReplay.Playback.Duration
import TermReplay.Playback.FileContent

/-!
Recordings: chunks of output with the time each was captured. In a file every chunk is a header
of three little-endian 32-bit words, seconds, microseconds and payload length, followed by the
payload. Reading fails where a header or a payload is cut short, and tells where.
-/

namespace TermReplay

structure Chunk where
  time : Duration
  data : List UInt8
  deriving DecidableEq, Repr

abbrev Recording := List Chunk

inductive RecordingError
  | file (error : FileError)
  /-- A header is cut short at this position. -/
  | truncatedHeader (offset : Nat)
  /-- The payload of the chunk at this position is cut short. -/
  | truncatedPayload (offset expected available : Nat)
  deriving DecidableEq, Repr

def RecordingError.message : RecordingError → String
  | .file error => "IO error: " ++ error.message
  | .truncatedHeader offset => "truncated record header at byte " ++ toString offset
  | .truncatedPayload offset expected available =>
    "record at byte " ++ toString offset ++ " needs " ++ toString expected ++
      " payload bytes, " ++ toString available ++ " left"

namespace Recording

def headerLength : Nat := 12

def wordLimit : Nat := Number.twoTo 32 - 1

def wordOf : List UInt8 → Nat
  | [] => 0
  | b :: bs => b.toNat + 256 * wordOf bs

def wordBytes (n : Nat) : List UInt8 :=
  [UInt8.ofNat n, UInt8.ofNat (n / 256), UInt8.ofNat (n / 65536), UInt8.ofNat (n / 16777216)]

/-- The time in a header. Microseconds may be a million and more. -/
def headerTime (seconds microseconds : Nat) : Duration :=
  Duration.ofSeconds seconds (microseconds * 1000)

/-- Reads chunks from `bytes`, which begin at position `offset`. -/
def decodeFrom (offset : Nat) (bytes : List UInt8) : Except RecordingError Recording :=
  if h : bytes = [] then .ok []
  else
    have := List.length_pos_iff.2 h
    let header := bytes.take headerLength
    let rest := bytes.drop headerLength
    if header.length < headerLength then .error (.truncatedHeader offset)
    else
      let time := headerTime (wordOf (header.take 4)) (wordOf ((header.drop 4).take 4))
      let length := wordOf (header.drop 8)
      let data := rest.take length
      if data.length < length then .error (.truncatedPayload offset length rest.length)
      else
        match decodeFrom (offset + headerLength + length) (rest.drop length) with
        | .error e => .error e
        | .ok chunks => .ok (⟨time, data⟩ :: chunks)
  termination_by bytes.length
  decreasing_by
    simp only [List.length_drop, headerLength]
    omega

def decode (bytes : List UInt8) : Except RecordingError Recording := decodeFrom 0 bytes

/-- Cuts a payload into parts whose lengths fit a word; an empty payload is one empty part. -/
def payloads (data : List UInt8) : List (List UInt8) :=
  if data.length ≤ wordLimit then [data]
  else data.take wordLimit :: payloads (data.drop wordLimit)
  termination_by data.length
  decreasing_by
    have : 0 < wordLimit := by decide
    simp only [List.length_drop]
    omega

/-- One header and payload. Seconds beyond a word are cut, and so is what is less than a
microsecond. -/
def encodePart (time : Duration) (data : List UInt8) : List UInt8 :=
  wordBytes (min time.seconds wordLimit) ++ wordBytes (time.subsecond / 1000) ++
    wordBytes data.length ++ data

def encodeChunk (c : Chunk) : List UInt8 := (payloads c.data).flatMap (encodePart c.time)

def encode (recording : Recording) : List UInt8 := recording.flatMap encodeChunk

def ofFile : FileContent → Except RecordingError Recording
  | .error e => .error (.file e)
  | .ok bytes => decode bytes

end Recording

end TermReplay

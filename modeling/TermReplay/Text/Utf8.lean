import TermReplay.Number.Power

/-!
UTF-8 as a reader of fronts: the bytes that may follow a lead byte are a list of ranges, and the
front of a buffer is a complete character, the beginning of one, or neither. The ranges leave out
overlong forms, surrogates and everything above the last scalar value.
-/

namespace TermReplay.Text.Utf8

structure ByteRange where
  low : UInt8
  high : UInt8
  deriving DecidableEq, Repr

def ByteRange.contains (r : ByteRange) (b : UInt8) : Bool :=
  r.low ≤ b && b ≤ r.high

def continuation : ByteRange := ⟨0x80, 0xbf⟩

/-- The ranges of the bytes after a lead byte; only the first of them depends on the lead. -/
def following? (lead : UInt8) : Option (List ByteRange) :=
  if 0xc2 ≤ lead ∧ lead ≤ 0xdf then some [continuation]
  else if lead = 0xe0 then some [⟨0xa0, 0xbf⟩, continuation]
  else if lead = 0xed then some [⟨0x80, 0x9f⟩, continuation]
  else if 0xe1 ≤ lead ∧ lead ≤ 0xef then some [continuation, continuation]
  else if lead = 0xf0 then some [⟨0x90, 0xbf⟩, continuation, continuation]
  else if 0xf1 ≤ lead ∧ lead ≤ 0xf3 then some [continuation, continuation, continuation]
  else if lead = 0xf4 then some [⟨0x80, 0x8f⟩, continuation, continuation]
  else none

inductive Front
  /-- The first `length` bytes are one character. -/
  | complete (length : Nat)
  /-- The whole buffer is a proper beginning of a character. -/
  | truncated
  /-- No character starts here; the first `fits` bytes could have started one. -/
  | invalid (fits : Nat)
  deriving DecidableEq, Repr

/-- Compares bytes with the ranges still due, after `fits` bytes that were right. -/
def follow : List ByteRange → List UInt8 → Nat → Front
  | [], _, fits => .complete fits
  | _ :: _, [], _ => .truncated
  | r :: rs, b :: bs, fits => if r.contains b then follow rs bs (fits + 1) else .invalid fits

def front : List UInt8 → Front
  | [] => .invalid 0
  | lead :: bytes =>
    match following? lead with
    | none => .invalid 1
    | some ranges => follow ranges bytes 1

/-- The scalar value spelled by a complete multi-byte sequence: each continuation byte adds six
bits, and the lead byte gives the bits that remain. -/
def scalar : List UInt8 → Nat
  | [] => 0
  | lead :: rest =>
    rest.foldl (fun acc b => acc * 64 + b.toNat % 64) (lead.toNat % Number.twoTo (6 - rest.length))

def character (bytes : List UInt8) : Char :=
  Char.ofNat (scalar bytes)

/-- Cuts bytes into characters and ill-formed pieces (`none`). A piece is as long as it could
have gone on being a character, and at least one byte. -/
def pieces : List UInt8 → List (Option Char)
  | [] => []
  | b :: bs =>
    if b < 0x80 then some (Char.ofNat b.toNat) :: pieces bs
    else
      match front (b :: bs) with
      | .complete n => some (character (b :: bs.take (n - 1))) :: pieces (bs.drop (n - 1))
      | .truncated => [none]
      | .invalid fits => none :: pieces (bs.drop (fits - 1))
  termination_by bytes => bytes.length
  decreasing_by all_goals simp only [List.length_cons, List.length_drop]; omega

def replacement : Char := Char.ofNat 0xfffd

/-- Reads any bytes, with a replacement character for each ill-formed piece. -/
def decodeLossy (bytes : List UInt8) : List Char :=
  (pieces bytes).map (·.getD replacement)

def decode? (bytes : List UInt8) : Option (List Char) :=
  (pieces bytes).mapM id

end TermReplay.Text.Utf8

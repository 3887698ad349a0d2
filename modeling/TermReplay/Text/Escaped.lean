/-!
Printable forms of raw bytes. Everything outside printable ASCII is written as an escape, and so
are quotes and backslashes: a message about malformed input never carries the bytes it reports.
-/

namespace TermReplay.Text

def hexByte (b : UInt8) : List Char :=
  [Nat.digitChar (b.toNat / 16), Nat.digitChar (b.toNat % 16)]

def escapeByte (b : UInt8) : List Char :=
  if b = 0x09 then ['\x5c', 't']
  else if b = 0x0a then ['\x5c', 'n']
  else if b = 0x0d then ['\x5c', 'r']
  else if b = 0x22 ∨ b = 0x27 ∨ b = 0x5c then ['\x5c', Char.ofNat b.toNat]
  else if 0x20 ≤ b ∧ b ≤ 0x7e then [Char.ofNat b.toNat]
  else '\x5c' :: 'x' :: hexByte b

def escapeBytes (bytes : List UInt8) : String :=
  String.ofList (bytes.flatMap escapeByte)

/-- The form `0x1b` used when a message names one byte. -/
def namedByte (b : UInt8) : String :=
  "0x" ++ String.ofList (hexByte b)

def ascii (bytes : List UInt8) : String :=
  String.ofList (bytes.map fun b => Char.ofNat b.toNat)

def asciiBytes (s : String) : List UInt8 :=
  s.toList.map fun c => UInt8.ofNat c.toNat

end TermReplay.Text

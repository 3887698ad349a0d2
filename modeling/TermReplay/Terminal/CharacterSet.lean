/-!
Character sets: two slots, each designated to a table, and the slot through which incoming
characters are translated. Tables only replace single characters, so text keeps its length.
-/

namespace TermReplay

inductive Slot
  | g0 | g1
  deriving DecidableEq, Repr, Inhabited

inductive CharacterSet
  | us
  /-- The number sign shows as a pound sign. -/
  | uk
  /-- Line drawing and symbols in the place of the lower-case letters. -/
  | line
  /-- The alternate character ROMs have no tables of their own. -/
  | rom
  | romSpecial
  deriving DecidableEq, Repr, Inhabited

/-- Line drawing. The scan lines other than the middle one have no picture and pass through. -/
def drawnAs (c : Char) : Char :=
  match c with
  | '_' => ' '
  | '\x60' => Char.ofNat 0x2666
  | 'a' => Char.ofNat 0x2591
  | 'b' => Char.ofNat 0x2409
  | 'c' => Char.ofNat 0x240c
  | 'd' => Char.ofNat 0x240d
  | 'e' => Char.ofNat 0x240a
  | 'f' => Char.ofNat 0xb0
  | 'g' => Char.ofNat 0xb1
  | 'h' => Char.ofNat 0x2424
  | 'i' => Char.ofNat 0x240b
  | 'j' => Char.ofNat 0x2518
  | 'k' => Char.ofNat 0x2510
  | 'l' => Char.ofNat 0x250c
  | 'm' => Char.ofNat 0x2514
  | 'n' => Char.ofNat 0x253c
  | 'q' => Char.ofNat 0x2500
  | 't' => Char.ofNat 0x2524
  | 'u' => Char.ofNat 0x251c
  | 'v' => Char.ofNat 0x2534
  | 'w' => Char.ofNat 0x252c
  | 'x' => Char.ofNat 0x2502
  | 'y' => Char.ofNat 0x2264
  | 'z' => Char.ofNat 0x2265
  | '{' => Char.ofNat 0x3c0
  | '|' => Char.ofNat 0x2260
  | '}' => Char.ofNat 0xa3
  | '~' => Char.ofNat 0xb7
  | c => c

def CharacterSet.translate (set : CharacterSet) (c : Char) : Char :=
  match set with
  | .uk => if c = '#' then Char.ofNat 0xa3 else c
  | .line => drawnAs c
  | .us | .rom | .romSpecial => c

structure Designations where
  g0 : CharacterSet := .us
  g1 : CharacterSet := .line
  active : Slot := .g0
  deriving DecidableEq, Repr, Inhabited

namespace Designations

def get (d : Designations) : Slot → CharacterSet
  | .g0 => d.g0
  | .g1 => d.g1

def designate (d : Designations) (slot : Slot) (set : CharacterSet) : Designations :=
  match slot with
  | .g0 => { d with g0 := set }
  | .g1 => { d with g1 := set }

def use (d : Designations) (slot : Slot) : Designations :=
  { d with active := slot }

def translate (d : Designations) (c : Char) : Char :=
  (d.get d.active).translate c

end Designations

end TermReplay

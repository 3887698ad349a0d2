import TermReplay.Screen.Cell

/-!
A row as it is reported when it leaves the screen: one string for the text and one for each
attribute, a character for each column. Colours above nine have no digit and show as a question
mark.
-/

namespace TermReplay

structure RowImage where
  text : String
  bold : String
  underline : String
  lowIntensity : String
  blink : String
  foreground : String
  background : String
  size : LineSize
  deriving DecidableEq, Repr, Inhabited

namespace RowImage

def flag (on : Bool) : Char := if on then 'T' else 'F'

def colour (c : UInt8) : Char := if c ≤ 9 then Nat.digitChar c.toNat else '?'

/-- Blank text in plain attributes; the size of the row does not count. -/
def isBlank (r : RowImage) : Bool :=
  r.text.toList.all (· == ' ') && r.bold.toList.all (· == 'F') &&
    r.underline.toList.all (· == 'F') && r.lowIntensity.toList.all (· == 'T') &&
    r.blink.toList.all (· == 'F') && r.foreground.toList.all (· == '7') &&
    r.background.toList.all (· == '0')

/-- Plain attributes and normal size; the text does not count. -/
def isPlain (r : RowImage) : Bool :=
  isBlank { r with text := "" } && r.size == .single

end RowImage

end TermReplay

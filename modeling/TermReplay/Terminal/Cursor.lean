import TermReplay.Screen.Cell

/-!
The cursor: a position, the pen for new characters, and two flags that cells do not carry.
Reverse video is kept as a swap of the two colours that is in force or not, so asking for it
twice changes nothing.
-/

namespace TermReplay

structure Cursor where
  /-- The column; one past the last while a wrap is pending. -/
  x : Nat := 0
  y : Nat := 0
  pen : Pen := {}
  /-- Whether the colours of the pen are swapped. -/
  reversed : Bool := false
  /-- Remembered only. -/
  invisible : Bool := false
  deriving DecidableEq, Repr, Inhabited

namespace Cursor

def plain (c : Cursor) : Cursor := { x := c.x, y := c.y }

def moveTo (c : Cursor) (x y : Nat) : Cursor := { c with x, y }

def setReversed (c : Cursor) (on : Bool) : Cursor :=
  if c.reversed = on then c
  else
    { c with
      pen := { c.pen with foreground := c.pen.background, background := c.pen.foreground }
      reversed := on }

/-- The cursor after one attribute code; `none` for codes without a meaning. -/
def applyAttribute? (c : Cursor) (code : Nat) : Option Cursor :=
  match code with
  | 0 => some c.plain
  | 1 => some { c with pen := { c.pen with bold := true } }
  | 21 => some { c with pen := { c.pen with bold := false } }
  | 2 => some { c with pen := { c.pen with lowIntensity := true } }
  | 22 => some { c with pen := { c.pen with lowIntensity := false } }
  | 4 => some { c with pen := { c.pen with underline := true } }
  | 24 => some { c with pen := { c.pen with underline := false } }
  | 5 => some { c with pen := { c.pen with blink := true } }
  | 25 => some { c with pen := { c.pen with blink := false } }
  | 7 => some (c.setReversed true)
  | 27 => some (c.setReversed false)
  | 8 => some { c with invisible := true }
  | 28 => some { c with invisible := false }
  | _ =>
    if 30 ≤ code ∧ code ≤ 39 then
      some { c with pen := { c.pen with foreground := UInt8.ofNat (code - 30) } }
    else if 40 ≤ code ∧ code ≤ 49 then
      some { c with pen := { c.pen with background := UInt8.ofNat (code - 40) } }
    else none

end Cursor

end TermReplay

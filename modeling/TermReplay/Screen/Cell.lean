/-!
What a grid is made of: characters with the attributes they were drawn with, and the size marker
that a whole row carries.
-/

namespace TermReplay

structure Pen where
  bold : Bool := false
  underline : Bool := false
  /-- The normal palette; off selects the bright one. -/
  lowIntensity : Bool := true
  blink : Bool := false
  foreground : UInt8 := 7
  background : UInt8 := 0
  deriving DecidableEq, Repr, Inhabited

def Pen.plain : Pen := {}

structure Cell where
  char : Char := ' '
  pen : Pen := {}
  deriving DecidableEq, Repr, Inhabited

/-- A space drawn with the plain pen; every erase leaves it. -/
def Cell.blank : Cell := {}

inductive LineWidth
  | normal | double
  deriving DecidableEq, Repr, Inhabited

inductive LineHeight
  | normal | top | bottom
  deriving DecidableEq, Repr, Inhabited

structure LineSize where
  width : LineWidth := .normal
  height : LineHeight := .normal
  deriving DecidableEq, Repr, Inhabited

def LineSize.single : LineSize := {}

end TermReplay

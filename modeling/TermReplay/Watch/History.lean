import TermReplay.Terminal.Notice
import TermReplay.Text.Blank

/-!
Lines that left the scroll region upwards, in a ring of fixed capacity: once it is full, each new
line takes the place of the oldest.
-/

namespace TermReplay

structure History where
  capacity : Nat
  slots : Array RowImage := #[]
  /-- The slot of the oldest line. -/
  head : Nat := 0
  deriving DecidableEq, Repr

namespace History

def create (capacity : Nat) : History := { capacity }

def size (h : History) : Nat := h.slots.size

def isEmpty (h : History) : Bool := h.size == 0

/-- A ring without capacity keeps nothing. -/
def push (h : History) (line : RowImage) : History :=
  if h.capacity = 0 then h
  else if h.slots.size < h.capacity then { h with slots := h.slots.push line }
  else
    { h with
      slots := h.slots.setIfInBounds h.head line
      head := (h.head + 1) % h.capacity }

/-- The line of a given age; the oldest has age zero. -/
def get? (h : History) (age : Nat) : Option RowImage :=
  if age < h.size then h.slots[(h.head + age) % h.size]? else none

/-- Counts from the newest line. -/
def getFromEnd? (h : History) (age : Nat) : Option RowImage :=
  if age < h.size then h.get? (h.size - 1 - age) else none

def toList (h : History) : List RowImage :=
  (List.range h.size).filterMap h.get?

def clear (h : History) : History := { h with slots := #[], head := 0 }

/-- Every line without the blanks at its end, each with a line feed. -/
def text (h : History) : String :=
  String.join (h.toList.map fun line => Text.trimEnd line.text ++ "\n")

/-- Keeps what scrolled upwards. -/
def watch (h : History) : Notice → History
  | .scrolled line 1 => h.push line
  | _ => h

end History

end TermReplay

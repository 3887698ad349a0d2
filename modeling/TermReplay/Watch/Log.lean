import TermReplay.Terminal.Notice

/-!
Reading a list of notices: what was changed, answered and warned about, and where the cursor was
last.
-/

namespace TermReplay.Notice

/-- Neither a change, a cursor position, a reply nor a warning. -/
def isSpecial : Notice → Bool
  | .change .. | .cursor .. | .reply _ | .warning _ => false
  | _ => true

def changes (log : List Notice) : List (Nat × Nat × Nat) :=
  log.filterMap fun
    | .change row first last => some (row, first, last)
    | _ => none

def replies (log : List Notice) : List UInt8 :=
  log.flatMap fun
    | .reply bytes => bytes
    | _ => []

def warnings (log : List Notice) : List String :=
  log.filterMap fun
    | .warning message => some message
    | _ => none

def cursorOf? : Notice → Option (Nat × Nat)
  | .cursor x y => some (x, y)
  | _ => none

def lastCursor? (log : List Notice) : Option (Nat × Nat) :=
  log.reverse.findSome? cursorOf?

end TermReplay.Notice

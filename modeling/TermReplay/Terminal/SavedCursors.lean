import TermReplay.Terminal.Cursor

/-!
Saved cursors, a stack that forgets: it holds at most `depth` of them, and saving one more drops
the oldest.
-/

namespace TermReplay

structure SavedCursors where
  /-- Newest first. -/
  entries : List Cursor := []
  depth : Nat
  deriving DecidableEq, Repr, Inhabited

namespace SavedCursors

/-- An empty stack; it has room for at least one cursor. -/
def empty (depth : Nat) : SavedCursors := { depth := max depth 1 }

/-- A stack without any room keeps what it has. -/
def push (s : SavedCursors) (c : Cursor) : SavedCursors :=
  if s.depth = 0 then s else { s with entries := (c :: s.entries).take s.depth }

def pop? (s : SavedCursors) : Option (Cursor × SavedCursors) :=
  match s.entries with
  | [] => none
  | c :: rest => some (c, { s with entries := rest })

def clear (s : SavedCursors) : SavedCursors := { s with entries := [] }

end SavedCursors

end TermReplay

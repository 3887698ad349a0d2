import TermReplay.Terminal.Basic

/-!
Reactions: a terminal after some commands, with the notices it sent. Reactions are composed one
after the other, and the notices of the parts are joined in order.
-/

namespace TermReplay

structure Reaction where
  terminal : Terminal
  /-- Oldest first. -/
  notices : List Notice
  deriving DecidableEq, Repr

namespace Reaction

def andThen (r : Reaction) (f : Terminal → Reaction) : Reaction :=
  match r with
  | ⟨t, notices⟩ =>
    match f t with
    | ⟨after, more⟩ => ⟨after, notices ++ more⟩

end Reaction

namespace Terminal

def quietly (t : Terminal) : Reaction := ⟨t, []⟩

def telling (t : Terminal) (notices : List Notice) : Reaction := ⟨t, notices⟩

def warning (t : Terminal) (message : String) : Reaction := ⟨t, [.warning message]⟩

def tellingCursor (t : Terminal) : Reaction := ⟨t, [.cursor t.cursor.x t.cursor.y]⟩

def wholeRows (t : Terminal) (rows : List Nat) : List Notice :=
  rows.map fun y => .change y 0 t.lastColumn

def rowsUpTo (first stop : Nat) : List Nat := List.range' first (stop - first)

def each {α : Type} (f : α → Terminal → Reaction) : List α → Terminal → Reaction
  | [], t => t.quietly
  | a :: rest, t => (f a t).andThen (each f rest)

end Terminal

end TermReplay

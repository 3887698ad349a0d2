import TermReplay.Proofs.FullScreen

/-!
A bounded stack of cursors beside one without bound. However saves and restores follow each other,
the bounded stack holds the newest of the cursors that the other one holds: only the oldest are
ever dropped, so a cursor that comes back is the one that would have come back anyway. What the
bound costs is that the stack is empty sooner.
-/

namespace TermReplay

inductive SaveStep
  | push (c : Cursor)
  | pop
  deriving DecidableEq, Repr

namespace SaveStep

/-- The step on a stack that drops nothing, newest first. -/
def unbounded (all : List Cursor) : SaveStep → List Cursor
  | push c => c :: all
  | pop => all.tail

/-- The step counted, where there is room for so many cursors: a full stack stays full, and an
empty one has nothing to lose. -/
def counted (room count : Nat) : SaveStep → Nat
  | push _ => min (count + 1) room
  | pop => count - 1

end SaveStep

namespace SavedCursors

/-- Taking a cursor off an empty stack leaves it empty. -/
def step (s : SavedCursors) : SaveStep → SavedCursors
  | .push c => s.push c
  | .pop => (s.pop?.map Prod.snd).getD s

def run (s : SavedCursors) (steps : List SaveStep) : SavedCursors := steps.foldl step s

/-- The stack has room for so many cursors, and holds the newest `count` of all that are saved. -/
structure HoldsNewest (s : SavedCursors) (room count : Nat) (all : List Cursor) : Prop where
  depth_eq : s.depth = room
  room_pos : 0 < room
  entries_eq : s.entries = all.take count
  count_le_all : count ≤ all.length
  count_le_room : count ≤ room

variable {s : SavedCursors} {room count : Nat} {all : List Cursor}

theorem empty_holdsNewest (depth : Nat) : (empty depth).HoldsNewest (max depth 1) 0 [] where
  depth_eq := rfl
  room_pos := Nat.le_max_right depth 1
  entries_eq := rfl
  count_le_all := Nat.le_refl 0
  count_le_room := Nat.zero_le _

theorem HoldsNewest.length_entries (h : s.HoldsNewest room count all) :
    s.entries.length = count := by
  rw [h.entries_eq, List.length_take, Nat.min_eq_left h.count_le_all]

theorem HoldsNewest.push_entries (h : s.HoldsNewest room count all) (c : Cursor) :
    (s.push c).entries = (c :: s.entries).take room := by
  have hdepth := h.depth_eq
  rw [push, if_neg (Nat.ne_of_gt (hdepth ▸ h.room_pos)), hdepth]

theorem HoldsNewest.push (h : s.HoldsNewest room count all) (c : Cursor) :
    (s.push c).HoldsNewest room (min (count + 1) room) (c :: all) where
  depth_eq := (push_depth s c).trans h.depth_eq
  room_pos := h.room_pos
  entries_eq := by
    rw [h.push_entries, h.entries_eq, ← List.take_succ_cons, List.take_take, Nat.min_comm]
  count_le_all := Nat.le_trans (Nat.min_le_left ..) (Nat.succ_le_succ h.count_le_all)
  count_le_room := Nat.min_le_right ..

theorem HoldsNewest.pop (h : s.HoldsNewest room count all) :
    (s.step .pop).HoldsNewest room (count - 1) all.tail := by
  obtain ⟨entries, depth⟩ := s
  obtain ⟨hdepth, hpos, rfl, hall, hroom⟩ := h
  cases count with
  | zero => exact ⟨hdepth, hpos, rfl, Nat.zero_le _, hroom⟩
  | succ count =>
      cases all with
      | nil => exact absurd hall (Nat.not_succ_le_zero count)
      | cons c all =>
          exact ⟨hdepth, hpos, rfl, Nat.le_of_succ_le_succ hall, Nat.le_of_succ_le hroom⟩

/-- A step on the stack is the step on the stack without a limit, and counts as it should. -/
theorem HoldsNewest.step (h : s.HoldsNewest room count all) (a : SaveStep) :
    (s.step a).HoldsNewest room (a.counted room count) (a.unbounded all) := by
  cases a with
  | push c => exact h.push c
  | pop => exact h.pop

/-- However cursors are saved and taken off, the stack holds the newest of all that are saved. -/
theorem HoldsNewest.run (h : s.HoldsNewest room count all) (steps : List SaveStep) :
    (s.run steps).HoldsNewest room (steps.foldl (SaveStep.counted room) count)
      (steps.foldl SaveStep.unbounded all) := by
  induction steps generalizing s count all with
  | nil => exact h
  | cons a steps ih => exact ih (h.step a)

/-- What is taken off is the newest of all. -/
theorem HoldsNewest.head_of_pop (h : s.HoldsNewest room count all) {c : Cursor}
    {rest : SavedCursors} (hp : s.pop? = some (c, rest)) : all.head? = some c := by
  have hhead : s.entries.head? = some c := by
    rw [pop?] at hp
    split at hp
    · cases hp
    · next hentries =>
        cases hp
        rw [hentries, List.head?_cons]
  rw [h.entries_eq, List.head?_take] at hhead
  split at hhead
  · cases hhead
  · exact hhead

/-- While there is room nothing is dropped, and then only the oldest cursor. -/
theorem HoldsNewest.push_drops (h : s.HoldsNewest room count all) (c : Cursor) :
    (s.push c).entries = c :: if count < room then s.entries else s.entries.dropLast := by
  have hlength := h.length_entries
  obtain ⟨room, rfl⟩ := Nat.exists_eq_succ_of_ne_zero (Nat.ne_of_gt h.room_pos)
  rw [h.push_entries, List.take_succ_cons]
  split
  · next hlt => rw [List.take_of_length_le (hlength ▸ Nat.le_of_lt_succ hlt)]
  · next hfull =>
      have hcount : count = room + 1 := Nat.le_antisymm h.count_le_room (Nat.le_of_not_lt hfull)
      rw [List.dropLast_eq_take, hlength, hcount, Nat.add_sub_cancel]

/-- After any saves and restores, whether any of them found the stack full or empty, an empty
stack made for `depth` cursors holds the newest of those that a stack without bound holds, as many
as saving up to the bound and taking off leaves, and never more than there is room for. A cursor
taken off next is the one that the stack without bound gives, and one saved next drops nothing
unless the stack is full, and then the oldest alone. -/
theorem newest_of_unbounded (depth : Nat) (steps : List SaveStep) :
    let s := (empty depth).run steps
    let all := steps.foldl SaveStep.unbounded []
    s.entries <+: all ∧
      s.entries.length = steps.foldl (SaveStep.counted (max depth 1)) 0 ∧
      s.entries.length ≤ max depth 1 ∧
      (∀ c rest, s.pop? = some (c, rest) → all.head? = some c) ∧
      ∀ c, (s.push c).entries =
        c :: if s.entries.length < max depth 1 then s.entries else s.entries.dropLast := by
  have h := (empty_holdsNewest depth).run steps
  intro s all
  refine ⟨?_, h.length_entries, ?_, fun c rest => h.head_of_pop, ?_⟩
  · rw [h.entries_eq]
    exact List.take_prefix ..
  · rw [h.length_entries]
    exact h.count_le_room
  · intro c
    rw [h.length_entries]
    exact h.push_drops c

end SavedCursors

end TermReplay

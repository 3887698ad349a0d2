import Mathlib.Data.List.DropRight
import Mathlib.Data.List.Rotate
import TermReplay.Watch.History

/-!
The ring of scrolled lines is a window on the lines pushed last: wherever the oldest is, the
ring holds as many of them as it has room for, and lists them oldest first.
-/

namespace TermReplay

def Notice.scrolledUp? : Notice → Option RowImage
  | .scrolled line direction => if direction = 1 then some line else none
  | _ => none

/-- The lines that left the scroll region upwards, in the order they did. -/
def Notice.scrolledUp (notices : List Notice) : List RowImage := notices.filterMap scrolledUp?

section RTake

variable {α : Type} {count : Nat}

theorem rtake_of_length_le {xs : List α} (h : xs.length ≤ count) : xs.rtake count = xs := by
  rw [List.rtake, Nat.sub_eq_zero_of_le h, List.drop_zero]

/-- What was left out before is left out for good. -/
theorem rtake_rtake_append (xs ys : List α) :
    (xs.rtake count ++ ys).rtake count = (xs ++ ys).rtake count := by
  simp only [List.rtake, List.length_append, List.length_drop, List.drop_append, List.drop_drop]
  congr 2 <;> omega

end RTake

namespace History

/-- The ring holds these lines, oldest first. -/
structure Holds (h : History) (lines : List RowImage) : Prop where
  lines_eq : h.slots.toList.rotate h.head = lines
  bounded : h.slots.size ≤ h.capacity
  growing : h.slots.size < h.capacity → h.head = 0
  head_lt : 0 < h.slots.size → h.head < h.slots.size

variable {h : History} {lines : List RowImage}

theorem create_holds (capacity : Nat) : (create capacity).Holds [] where
  lines_eq := rfl
  bounded := Nat.zero_le _
  growing := fun _ => rfl
  head_lt := nofun

theorem Holds.size_eq (hl : h.Holds lines) : h.slots.size = lines.length := by
  rw [← hl.lines_eq, List.length_rotate, Array.length_toList]

theorem Holds.get? (hl : h.Holds lines) (age : Nat) : h.get? age = lines[age]? := by
  have hsize := hl.size_eq
  rw [History.get?, size]
  split
  · next hage =>
      rw [← hl.lines_eq, List.getElem?_rotate (by rwa [Array.length_toList]), Nat.add_comm,
        Array.length_toList, Array.getElem?_toList]
  · next hage => rw [List.getElem?_eq_none (by omega)]

theorem filterMap_range (lines : List RowImage) :
    (List.range lines.length).filterMap (lines[·]?) = lines := by
  induction lines with
  | nil => rfl
  | cons line lines ih =>
      rw [List.length_cons, List.range_succ_eq_map]
      show line :: (List.map Nat.succ _).filterMap _ = _
      rw [List.filterMap_map]
      exact congrArg (line :: ·) ih

theorem Holds.toList_eq (hl : h.Holds lines) : h.toList = lines := by
  have hget : h.get? = (lines[·]?) := funext hl.get?
  rw [toList, size, hl.size_eq, hget, filterMap_range]

/-- While there is room the new line comes behind the others. -/
theorem Holds.push_room (hl : h.Holds lines) (hroom : h.slots.size < h.capacity)
    (line : RowImage) : (h.push line).Holds (lines ++ [line]) := by
  have hhead := hl.growing hroom
  have hpush : h.push line = { h with slots := h.slots.push line } := by
    rw [push, if_neg (by omega), if_pos hroom]
  rw [hpush]
  constructor
  · rw [← hl.lines_eq, hhead]
    simp
  · rw [Array.size_push]
    exact hroom
  · exact fun _ => hhead
  · simp [hhead]

/-- In a full ring the new line takes the slot of the oldest, and the next one is the oldest. -/
theorem Holds.push_full (hl : h.Holds lines) (hfull : h.slots.size = h.capacity)
    (hpos : 0 < h.capacity) (line : RowImage) :
    (h.push line).Holds (lines.tail ++ [line]) := by
  have hhead := hl.head_lt (hfull ▸ hpos)
  have hpush : h.push line = { h with
      slots := h.slots.setIfInBounds h.head line
      head := (h.head + 1) % h.capacity } := by
    rw [push, if_neg (by omega), if_neg (by omega)]
  obtain ⟨newer, oldest, older, hslots, hlength⟩ : ∃ newer oldest older,
      h.slots.toList = newer ++ oldest :: older ∧ newer.length = h.head := by
    refine ⟨h.slots.toList.take h.head, h.slots[h.head], h.slots.toList.drop (h.head + 1), ?_, ?_⟩
    · rw [← Array.getElem_toList, ← List.drop_eq_getElem_cons, List.take_append_drop]
    · rw [List.length_take, Array.length_toList, Nat.min_eq_left (Nat.le_of_lt hhead)]
  have hlines : lines = oldest :: older ++ newer := by
    rw [← hl.lines_eq, hslots, ← hlength, List.rotate_append_length_eq]
  have hset : (h.slots.setIfInBounds h.head line).toList = (newer ++ [line]) ++ older := by
    rw [Array.toList_setIfInBounds, hslots, ← hlength, List.set_append_right _ _ (Nat.le_refl _)]
    simp
  have hcapacity : h.capacity = ((newer ++ [line]) ++ older).length := by
    rw [← hfull, ← Array.length_toList, hslots]
    simp
  rw [hpush, hlines]
  constructor
  · show (h.slots.setIfInBounds h.head line).toList.rotate ((h.head + 1) % h.capacity) = _
    rw [hset, hcapacity, List.rotate_mod, ← hlength, ← List.length_singleton (a := line),
      ← List.length_append, List.rotate_append_length_eq]
    simp
  · simpa using hl.bounded
  · simp [hfull]
  · intro _
    simp only [Array.size_setIfInBounds, hfull]
    exact Nat.mod_lt _ hpos

/-- The oldest line goes as soon as there is no room for another one. -/
theorem Holds.push (hl : h.Holds lines) (line : RowImage) :
    (h.push line).Holds ((lines ++ [line]).rtake h.capacity) := by
  have hsize := hl.size_eq
  have hbounded := hl.bounded
  have hlength : (lines ++ [line]).length = h.slots.size + 1 := by simp [hsize]
  by_cases hroom : h.slots.size < h.capacity
  · rw [rtake_of_length_le (by omega)]
    exact hl.push_room hroom line
  · cases hcapacity : h.capacity with
    | zero =>
        have hpush : h.push line = h := if_pos hcapacity
        rw [hpush, List.rtake_zero, ← List.eq_nil_of_length_eq_zero (by omega : lines.length = 0)]
        exact hl
    | succ n =>
        obtain ⟨first, rest, rfl⟩ := List.exists_cons_of_length_pos (by omega : 0 < lines.length)
        rw [List.rtake, hlength, ← hcapacity, show h.slots.size + 1 - h.capacity = 1 by omega]
        exact hl.push_full (by omega) (by omega) line

@[simp] theorem push_capacity (h : History) (line : RowImage) :
    (h.push line).capacity = h.capacity := by
  unfold push
  split
  · rfl
  · split <;> rfl

/-- Any number of lines, pushed one by one, leaves the newest of all. -/
theorem Holds.foldl_push (hl : h.Holds lines) (more : List RowImage) :
    (more.foldl History.push h).Holds ((lines ++ more).rtake h.capacity) := by
  induction more generalizing h lines with
  | nil =>
      rw [List.append_nil, rtake_of_length_le (hl.size_eq ▸ hl.bounded)]
      exact hl
  | cons line more ih =>
      have hrest := ih (hl.push line)
      rwa [push_capacity, rtake_rtake_append, List.append_assoc] at hrest

theorem watch_eq (h : History) (notice : Notice) :
    h.watch notice = notice.scrolledUp?.elim h h.push := by
  cases notice with
  | scrolled line direction =>
      by_cases hup : direction = 1
      · subst hup
        rfl
      · have hnone : (Notice.scrolled line direction).scrolledUp? = none := if_neg hup
        have hother : h.watch (.scrolled line direction) = h := by
          unfold watch
          split
          · next heq =>
              cases heq
              exact absurd rfl hup
          · rfl
        rw [hnone, hother]
        rfl
  | _ => rfl

/-- To watch notices is to push the lines that scrolled upwards, and no others. -/
theorem foldl_watch (h : History) (notices : List Notice) :
    notices.foldl watch h = (Notice.scrolledUp notices).foldl push h := by
  rw [Notice.scrolledUp, List.foldl_filterMap]
  congr 1
  funext h notice
  rw [watch_eq]
  cases notice.scrolledUp? <;> rfl

/-- A fresh ring that watched some notices lists the last of the lines they told of. -/
theorem toList_foldl_watch (capacity : Nat) (notices : List Notice) :
    (notices.foldl watch (create capacity)).toList =
      (Notice.scrolledUp notices).rtake capacity := by
  rw [foldl_watch]
  exact ((create_holds capacity).foldl_push _).toList_eq

end History

end TermReplay

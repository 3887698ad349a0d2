import TermReplay.Proofs.HistoryRing

/-!
Lines pushed to a history and histories cleared, in any order. What a history shows, read from
either end, listed or as a text, is the last of the lines pushed since it was cleared last,
however often the ring went round before.
-/

namespace TermReplay

inductive HistoryStep
  | push (line : RowImage)
  | clear
  deriving DecidableEq, Repr

namespace HistoryStep

def pushed? : HistoryStep → Option RowImage
  | push line => some line
  | clear => none

/-- The lines that were pushed since the history was cleared last, oldest first. -/
def sinceCleared (steps : List HistoryStep) : List RowImage :=
  (steps.rtakeWhile (· ≠ clear)).filterMap pushed?

theorem sinceCleared_nil : sinceCleared [] = [] := by
  rw [sinceCleared, List.rtakeWhile_nil]
  rfl

theorem sinceCleared_push (steps : List HistoryStep) (line : RowImage) :
    sinceCleared (steps ++ [push line]) = sinceCleared steps ++ [line] := by
  rw [sinceCleared, List.rtakeWhile_concat_pos _ _ _ (by simp), List.filterMap_append]
  rfl

theorem sinceCleared_clear (steps : List HistoryStep) :
    sinceCleared (steps ++ [clear]) = [] := by
  rw [sinceCleared, List.rtakeWhile_concat_neg _ _ _ (by simp)]
  rfl

end HistoryStep

namespace History

variable {h : History} {lines : List RowImage}

def step (h : History) : HistoryStep → History
  | .push line => h.push line
  | .clear => h.clear

def run (h : History) (steps : List HistoryStep) : History := steps.foldl step h

theorem step_capacity (h : History) (a : HistoryStep) : (h.step a).capacity = h.capacity := by
  cases a with
  | push line => exact push_capacity h line
  | clear => rfl

theorem run_capacity (h : History) (steps : List HistoryStep) :
    (h.run steps).capacity = h.capacity := by
  induction steps generalizing h with
  | nil => rfl
  | cons a steps ih => exact (ih (h.step a)).trans (h.step_capacity a)

theorem run_concat (h : History) (steps : List HistoryStep) (a : HistoryStep) :
    h.run (steps ++ [a]) = (h.run steps).step a :=
  List.foldl_concat ..

theorem clear_holds (h : History) : h.clear.Holds [] where
  lines_eq := rfl
  bounded := Nat.zero_le _
  growing := fun _ => rfl
  head_lt := nofun

/-- The induction is from the end, since what is shown depends on the last clearing. -/
theorem run_holds (capacity : Nat) (steps : List HistoryStep) :
    ((create capacity).run steps).Holds ((HistoryStep.sinceCleared steps).rtake capacity) := by
  induction steps using List.reverseRecOn with
  | nil =>
      rw [HistoryStep.sinceCleared_nil, List.rtake_nil]
      exact create_holds capacity
  | append_singleton steps a ih =>
      rw [run_concat]
      cases a with
      | push line =>
          have hpush := ih.push line
          rw [run_capacity] at hpush
          rwa [HistoryStep.sinceCleared_push, ← rtake_rtake_append]
      | clear =>
          rw [HistoryStep.sinceCleared_clear, List.rtake_nil]
          exact clear_holds _

theorem Holds.getFromEnd? (hl : h.Holds lines) (age : Nat) :
    h.getFromEnd? age = lines.reverse[age]? := by
  have hsize : h.size = lines.length := hl.size_eq
  rw [History.getFromEnd?, hsize]
  split
  · next hage => rw [hl.get?, List.getElem?_reverse hage]
  · next hage => rw [List.getElem?_eq_none (by rw [List.length_reverse]; omega)]

/-- A history of any capacity is a window on the lines pushed since it was cleared last: it lists
the last of them, as many as it has room for or as there are, oldest first; it gives each by its
place from either end and nothing beyond them; and its text is theirs, each without the blanks at
its end and with a line feed. -/
theorem window_on_last_lines (capacity : Nat) (steps : List HistoryStep) :
    let h := (create capacity).run steps
    let pushed := HistoryStep.sinceCleared steps
    let kept := pushed.drop (pushed.length - min capacity pushed.length)
    h.toList = kept ∧ h.size = min capacity pushed.length ∧ kept.length = h.size ∧
      (∀ age, h.get? age = kept[age]?) ∧
      (∀ age, h.getFromEnd? age = kept.reverse[age]?) ∧
      (∀ age, h.size ≤ age → h.get? age = none ∧ h.getFromEnd? age = none) ∧
      h.text = String.join (kept.map fun line => Text.trimEnd line.text ++ "\n") := by
  have hl := run_holds capacity steps
  intro h pushed kept
  have hkept : pushed.rtake capacity = kept := by
    rw [List.rtake]
    congr 1
    omega
  rw [hkept] at hl
  have hlength : kept.length = min capacity pushed.length := by
    rw [List.length_drop]
    omega
  refine ⟨hl.toList_eq, hl.size_eq.trans hlength, hl.size_eq.symm, hl.get?, hl.getFromEnd?, ?_, ?_⟩
  · intro age hage
    have hend : kept.length ≤ age := hl.size_eq ▸ hage
    rw [hl.get?, hl.getFromEnd?]
    exact ⟨List.getElem?_eq_none hend, List.getElem?_eq_none (by rwa [List.length_reverse])⟩
  · rw [text, hl.toList_eq]

end History

end TermReplay

import Mathlib.Data.List.DropRight
import Mathlib.Data.Set.Insert
import TermReplay.Proofs.CursorNotices

/-!
What is due to be painted, told by what a watcher went through: changes since the last taking,
everything at the start and after the whole state was replaced, and the cells that a cursor left
and entered. The columns that are due in a row are those of the spans that were asked for in it.
-/

namespace TermReplay

/-- The notice asks for columns to be painted, apart from those of the cursor. -/
def Notice.asksToPaint : Notice → Bool
  | .change .. | .replaced => true
  | _ => false

inductive RepaintStep
  | watch (n : Notice)
  | take
  deriving DecidableEq, Repr

namespace RepaintStep

def watched? : RepaintStep → Option Notice
  | watch n => some n
  | take => none

def watched (steps : List RepaintStep) : List Notice := steps.filterMap watched?

def sinceTaken (steps : List RepaintStep) : List Notice := watched (steps.rtakeWhile (· ≠ take))

/-- The steps up to the last taking, which is the last of them. -/
def untilTaken (steps : List RepaintStep) : List RepaintStep := steps.rdropWhile (· ≠ take)

/-- The cell of the cursor, on a column that exists, as it was told of last. Before it is told of,
it is in the first cell. -/
def cell (width : Nat) (steps : List RepaintStep) : Nat × Nat :=
  let position := Notice.cursorAfter (0, 0) (watched steps)
  (min position.1 (width - 1), position.2)

def drawn (width : Nat) (steps : List RepaintStep) : Nat × Nat := cell width (untilTaken steps)

/-- Nothing was taken yet, or since then the whole state was replaced. -/
def AllDue (steps : List RepaintStep) : Prop := take ∉ steps ∨ .replaced ∈ sinceTaken steps

/-- Why a column of a row is to be painted, on a watcher of the given size. -/
inductive Due (width height : Nat) (steps : List RepaintStep) (row x : Nat) : Prop
  | changed {first last : Nat} (htold : .change row first last ∈ sinceTaken steps)
      (hfirst : first ≤ x) (hlast : x ≤ last)
  | everything (hall : AllDue steps) (hrow : row < height) (hx : x < width)
  | entered (hmoved : cell width steps ≠ drawn width steps) (hcell : (x, row) = cell width steps)
  | left (hmoved : cell width steps ≠ drawn width steps) (hcell : (x, row) = drawn width steps)

/-- The spans asked for in a row since the last taking, apart from the cursor: first and last
column, the latter limited to the columns of the watcher. -/
def asked (width : Nat) (steps : List RepaintStep) (row : Nat) : Set (Nat × Nat) :=
  {span | (∃ last, .change row span.1 last ∈ sinceTaken steps ∧ span.2 = min last (width - 1)) ∨
    AllDue steps ∧ span = (0, width - 1)}

/-- The spans asked for in a row, with the cells of a cursor that moved. -/
def dueSpans (width : Nat) (steps : List RepaintStep) (row : Nat) : Set (Nat × Nat) :=
  {span | span ∈ asked width steps row ∨ cell width steps ≠ drawn width steps ∧
    (row = (cell width steps).2 ∧ span = ((cell width steps).1, (cell width steps).1) ∨
      row = (drawn width steps).2 ∧ span = ((drawn width steps).1, (drawn width steps).1))}

variable (width : Nat) (steps : List RepaintStep) (n : Notice)

theorem cell_le : (cell width steps).1 ≤ width - 1 := Nat.min_le_right ..

theorem asked_le (row : Nat) : ∀ span ∈ asked width steps row, span.2 ≤ width - 1 := by
  rintro span (⟨last, -, hspan⟩ | ⟨-, rfl⟩)
  · exact hspan ▸ Nat.min_le_right ..
  · exact Nat.le_refl _

theorem dueSpans_le (row : Nat) : ∀ span ∈ dueSpans width steps row, span.2 ≤ width - 1 := by
  rintro span (hspan | ⟨-, ⟨-, rfl⟩ | ⟨-, rfl⟩⟩)
  · exact asked_le width steps row span hspan
  · exact cell_le width steps
  · exact cell_le width (untilTaken steps)

/-- The columns of the watcher that are due are those of the spans. -/
theorem due_iff {width height : Nat} (hw : 1 ≤ width) {row x : Nat} (hrow : row < height) :
    Due width height steps row x ∧ x < width ↔
      ∃ span ∈ dueSpans width steps row, span.1 ≤ x ∧ x ≤ span.2 := by
  constructor
  · rintro ⟨hdue, hx⟩
    cases hdue with
    | @changed first last htold hfirst hlast =>
        exact ⟨(first, min last (width - 1)), .inl (.inl ⟨last, htold, rfl⟩), hfirst, by omega⟩
    | everything hall _ _ =>
        exact ⟨(0, width - 1), .inl (.inr ⟨hall, rfl⟩), Nat.zero_le x, Nat.le_pred_of_lt hx⟩
    | entered hmoved hcell =>
        refine ⟨_, .inr ⟨hmoved, .inl ⟨congrArg Prod.snd hcell, rfl⟩⟩, ?_⟩
        rw [← hcell]
        exact ⟨Nat.le_refl x, Nat.le_refl x⟩
    | left hmoved hcell =>
        refine ⟨_, .inr ⟨hmoved, .inr ⟨congrArg Prod.snd hcell, rfl⟩⟩, ?_⟩
        rw [← hcell]
        exact ⟨Nat.le_refl x, Nat.le_refl x⟩
  · rintro ⟨span, hspan, hfirst, hlast⟩
    have hx : x < width := by
      have hle := dueSpans_le width steps row span hspan
      omega
    refine ⟨?_, hx⟩
    obtain (⟨last, htold, hlimit⟩ | ⟨hall, -⟩) | ⟨hmoved, ⟨rfl, rfl⟩ | ⟨rfl, rfl⟩⟩ := hspan
    · exact .changed htold hfirst (by omega)
    · exact .everything hall hrow hx
    · exact .entered hmoved (Prod.ext (Nat.le_antisymm hlast hfirst) rfl)
    · exact .left hmoved (Prod.ext (Nat.le_antisymm hlast hfirst) rfl)

theorem watched_concat (s : RepaintStep) : watched (steps ++ [s]) = watched steps ++ watched [s] :=
  List.filterMap_append ..

theorem sinceTaken_watch : sinceTaken (steps ++ [watch n]) = sinceTaken steps ++ [n] := by
  rw [sinceTaken, List.rtakeWhile_concat_pos _ _ _ (by simp), watched_concat]
  rfl

theorem sinceTaken_take : sinceTaken (steps ++ [take]) = [] := by
  rw [sinceTaken, List.rtakeWhile_concat_neg _ _ _ (by simp)]
  rfl

theorem untilTaken_watch : untilTaken (steps ++ [watch n]) = untilTaken steps :=
  List.rdropWhile_concat_pos _ _ _ (by simp)

theorem untilTaken_take : untilTaken (steps ++ [take]) = steps ++ [take] :=
  List.rdropWhile_concat_neg _ _ _ (by simp)

theorem cell_take : cell width (steps ++ [take]) = cell width steps := by
  have hwatched : watched (steps ++ [take]) = watched steps :=
    (watched_concat steps take).trans (List.append_nil _)
  rw [cell, hwatched, cell]

theorem drawn_watch : drawn width (steps ++ [watch n]) = drawn width steps := by
  rw [drawn, untilTaken_watch, drawn]

theorem drawn_take : drawn width (steps ++ [take]) = cell width steps := by
  rw [drawn, untilTaken_take, cell_take]

theorem allDue_watch : AllDue (steps ++ [watch n]) ↔ AllDue steps ∨ n = .replaced := by
  simp [AllDue, sinceTaken_watch, eq_comm, or_assoc]

theorem not_allDue_take : ¬AllDue (steps ++ [take]) := by
  simp [AllDue, sinceTaken_take]

theorem asked_watch (row : Nat) :
    asked width (steps ++ [watch n]) row = {span | span ∈ asked width steps row ∨
      (∃ last, n = .change row span.1 last ∧ span.2 = min last (width - 1)) ∨
      n = .replaced ∧ span = (0, width - 1)} := by
  ext span
  simp only [asked, sinceTaken_watch, allDue_watch, List.mem_append, List.mem_singleton,
    Set.mem_ofPred_eq, or_and_right, exists_or, eq_comm (b := n)]
  exact or_or_or_comm

theorem asked_take (row : Nat) : asked width (steps ++ [take]) row = ∅ := by
  ext span
  simp [asked, sinceTaken_take, not_allDue_take]

theorem asked_watch_other {n : Notice} (hn : n.asksToPaint = false) (row : Nat) :
    asked width steps row = asked width (steps ++ [watch n]) row := by
  ext span
  rw [asked_watch]
  constructor
  · exact .inl
  · rintro (h | ⟨last, rfl, -⟩ | ⟨rfl, -⟩)
    · exact h
    · cases hn
    · cases hn

end RepaintStep

/-- The notice tells of a grid of the given size. The column of the cursor may be any. -/
def Notice.Inside (n : Notice) (width height : Nat) : Prop :=
  match n with
  | .change row first last => row < height ∧ first ≤ last ∧ last < width
  | .cursor _ y => y < height
  | _ => True

theorem Notice.cursorAfter_mem (before : Nat × Nat) (log : List Notice) :
    cursorAfter before log = before ∨
      ∃ x y, .cursor x y ∈ log ∧ cursorAfter before log = (x, y) := by
  rw [cursorAfter]
  cases hlast : lastCursor? log with
  | none => exact .inl rfl
  | some position =>
      obtain ⟨n, hn, hposition⟩ := List.exists_of_findSome?_eq_some hlast
      cases n with
      | cursor x y =>
          cases hposition
          exact .inr ⟨x, y, List.mem_reverse.mp hn, rfl⟩
      | _ => cases hposition

namespace RepaintStep

variable {width height : Nat} {steps : List RepaintStep}

theorem mem_watched {n : Notice} : n ∈ watched steps ↔ watch n ∈ steps := by
  rw [watched, List.mem_filterMap]
  constructor
  · rintro ⟨s, hs, hn⟩
    cases s with
    | watch m =>
        cases hn
        exact hs
    | take => cases hn
  · exact fun hs => ⟨_, hs, rfl⟩

theorem mem_of_mem_sinceTaken {n : Notice} (hn : n ∈ sinceTaken steps) : watch n ∈ steps :=
  (List.rtakeWhile_suffix _ _).mem (mem_watched.mp hn)

/-- Only a span that was told, and then had its last column limited, may go backwards. -/
theorem forward_or_told {row : Nat} {span : Nat × Nat} (hspan : span ∈ dueSpans width steps row) :
    span.1 ≤ span.2 ∨
      ∃ last, watch (.change row span.1 last) ∈ steps ∧ span.2 = min last (width - 1) := by
  obtain (⟨last, htold, hlast⟩ | ⟨-, rfl⟩) | ⟨-, ⟨-, rfl⟩ | ⟨-, rfl⟩⟩ := hspan
  · exact .inr ⟨last, mem_of_mem_sinceTaken htold, hlast⟩
  · exact .inl (Nat.zero_le _)
  · exact .inl (Nat.le_refl _)
  · exact .inl (Nat.le_refl _)

theorem dueSpans_forward
    (hs : ∀ row first last, watch (.change row first last) ∈ steps → first ≤ last ∧ last < width)
    (row : Nat) : ∀ span ∈ dueSpans width steps row, span.1 ≤ span.2 := by
  intro span hspan
  obtain hforward | ⟨last, htold, hlast⟩ := forward_or_told hspan
  · exact hforward
  · obtain ⟨hfirst, hin⟩ := hs _ _ _ htold
    omega

variable (hs : ∀ n, watch n ∈ steps → n.Inside width height)

include hs

theorem cell_row_lt (hh : 1 ≤ height) : (cell width steps).2 < height := by
  show (Notice.cursorAfter (0, 0) (watched steps)).2 < height
  obtain hstart | ⟨x, y, hmem, hlast⟩ := Notice.cursorAfter_mem (0, 0) (watched steps)
  · rw [hstart]
    exact hh
  · rw [hlast]
    exact hs _ (mem_watched.mp hmem)

theorem Due.inside (hw : 1 ≤ width) (hh : 1 ≤ height) {row x : Nat}
    (h : Due width height steps row x) : row < height ∧ x < width := by
  have hcell (some : List RepaintStep) (hsome : some <+: steps) :
      (cell width some).2 < height ∧ (cell width some).1 < width :=
    ⟨cell_row_lt (fun n hn => hs n (hsome.mem hn)) hh, by have := cell_le width some; omega⟩
  cases h with
  | changed htold hfirst hlast =>
      obtain ⟨hrow, -, hin⟩ := hs _ (mem_of_mem_sinceTaken htold)
      exact ⟨hrow, Nat.lt_of_le_of_lt hlast hin⟩
  | everything _ hrow hx => exact ⟨hrow, hx⟩
  | entered _ hat =>
      have hin := hcell steps (List.prefix_refl _)
      rwa [← hat] at hin
  | left _ hat =>
      have hin := hcell (untilTaken steps) (List.rdropWhile_prefix _ _)
      rw [drawn] at hat
      rwa [← hat] at hin

end RepaintStep

end TermReplay

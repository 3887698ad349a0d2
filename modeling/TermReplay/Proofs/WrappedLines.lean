import Mathlib.Data.List.DropRight

/-!
Lines typed on paper without end: a line that is longer than a row goes on in the next, and a
row that is just full is left only when more comes. This says where each character of the input
belongs; a terminal shows the end of the paper.
-/

namespace TermReplay

variable {α : Type}

/-- A line cut into pieces of `width`; an empty line is one empty piece. -/
def wrap (width : Nat) (line : List α) : List (List α) :=
  if line.length ≤ width ∨ width = 0 then [line]
  else line.take width :: wrap width (line.drop width)
  termination_by line.length
  decreasing_by
    simp only [List.length_drop]
    omega

theorem wrap_of_length_le {width : Nat} {line : List α} (h : line.length ≤ width) :
    wrap width line = [line] := by
  rw [wrap, if_pos (.inl h)]

/-- A full row that is followed by more is a piece of its own. -/
theorem wrap_append {width : Nat} (hw : 0 < width) {full rest : List α}
    (hfull : full.length = width) (hrest : rest ≠ []) :
    wrap width (full ++ rest) = full :: wrap width rest := by
  have hlong : ¬((full ++ rest).length ≤ width ∨ width = 0) := by
    have hpos := List.length_pos_iff.mpr hrest
    rw [List.length_append]
    omega
  rw [wrap, if_neg hlong, List.take_left' hfull, List.drop_left' hfull]

/-- The rows that are left, and the one being written. -/
structure Page (α : Type) where
  done : List (List α) := []
  last : List α := []

namespace Page

def rows (p : Page α) : List (List α) := p.done ++ [p.last]

/-- Adds to the last row, or to a new one if that is full. -/
def type (width : Nat) (p : Page α) (a : α) : Page α :=
  if p.last.length < width then { p with last := p.last ++ [a] }
  else { done := p.rows, last := [a] }

def newLine (p : Page α) : Page α := { done := p.rows }

def typeLine (width : Nat) (p : Page α) (line : List α) : Page α :=
  (line.foldl (type width) p).newLine

variable {width : Nat} {p : Page α}

theorem rows_foldl_type (hw : 0 < width) (line : List α) (hlast : p.last.length ≤ width) :
    (line.foldl (type width) p).rows = p.done ++ wrap width (p.last ++ line) := by
  induction line generalizing p with
  | nil => rw [List.append_nil, wrap_of_length_le hlast, List.foldl_nil, rows]
  | cons a line ih =>
      rw [List.foldl_cons]
      by_cases hroom : p.last.length < width
      · rw [type, if_pos hroom, ih (List.length_append ▸ hroom)]
        simp
      · have hone : [a].length ≤ width := hw
        have hfull : p.last.length = width := by omega
        rw [type, if_neg hroom, ih hone, wrap_append hw hfull (List.cons_ne_nil a line)]
        simp [rows]

theorem foldl_typeLine (hw : 0 < width) (lines : List (List α)) (done : List (List α)) :
    lines.foldl (typeLine width) { done } = { done := done ++ lines.flatMap (wrap width) } := by
  induction lines generalizing done with
  | nil => simp
  | cons line lines ih =>
      have hline : typeLine width { done } line = { done := done ++ wrap width line } := by
        rw [typeLine, newLine, rows_foldl_type hw line (Nat.zero_le _), List.nil_append]
      rw [List.foldl_cons, hline, ih, List.flatMap_cons, List.append_assoc]

/-- Typing over the end of a full row is typing on a new one. -/
theorem type_of_full (hw : 0 < width) (hfull : p.last.length = width) (a : α) :
    p.type width a = p.newLine.type width a := by
  have hempty : p.newLine.last.length < width := hw
  rw [type, if_neg (by omega), type, if_pos hempty]
  rfl

def Short (width : Nat) (p : Page α) : Prop := ∀ row ∈ p.rows, row.length ≤ width

theorem Short.type (h : p.Short width) (hroom : p.last.length < width) (a : α) :
    (p.type width a).Short width := by
  intro row hrow
  rw [Page.type, if_pos hroom] at hrow
  obtain hrow | hrow := List.mem_append.mp hrow
  · exact h row (List.mem_append_left _ hrow)
  · obtain rfl := List.mem_singleton.mp hrow
    rw [List.length_append]
    exact hroom

theorem Short.newLine (h : p.Short width) : p.newLine.Short width := by
  intro row hrow
  obtain hrow | hrow := List.mem_append.mp hrow
  · exact h row hrow
  · obtain rfl := List.mem_singleton.mp hrow
    exact Nat.zero_le _

/-- A row of the screen, counted from above; below the last row there is nothing. -/
def shown (p : Page α) (height y : Nat) : List α := (p.rows.rtake height)[y]?.getD []

def gone (p : Page α) (height : Nat) : List (List α) := p.rows.rdrop height

def row (p : Page α) (height : Nat) : Nat := min p.done.length (height - 1)

variable {height y : Nat}

theorem rows_getElem? (p : Page α) (i : Nat) :
    p.rows[i]? = if i = p.done.length then some p.last else p.done[i]? := by
  rw [rows, List.getElem?_append]
  split
  · rw [if_neg (by omega)]
  · split
    · next h => rw [h, Nat.sub_self, List.getElem?_cons_zero]
    · rw [List.getElem?_eq_none (by simp; omega), List.getElem?_eq_none (by omega)]

theorem shown_eq (p : Page α) (height y : Nat) :
    p.shown height y = (p.rows[p.done.length + 1 - height + y]?).getD [] := by
  rw [shown, List.rtake, List.getElem?_drop, rows, List.length_append, List.length_singleton]

/-- The rows of the screen from above, with empty ones below the last. -/
theorem map_shown (p : Page α) (height : Nat) :
    (List.range height).map (p.shown height) =
      p.rows.rtake height ++ List.replicate (height - p.rows.length) [] := by
  have hlength : (p.rows.rtake height).length = min height p.rows.length := by
    rw [List.rtake, List.length_drop]
    omega
  apply List.ext_getElem?
  intro y
  rw [List.getElem?_map, List.getElem?_append, List.getElem?_replicate]
  by_cases hy : y < height
  · rw [List.getElem?_range hy, Option.map_some, shown]
    split
    · next hlt => rw [List.getElem?_eq_getElem hlt, Option.getD_some]
    · next hge =>
        rw [if_pos (by omega), List.getElem?_eq_none (Nat.le_of_not_lt hge), Option.getD_none]
  · rw [if_neg (by omega), if_neg (by omega),
      List.getElem?_eq_none (by rw [List.length_range]; omega), Option.map_none]

theorem shown_row (p : Page α) (hh : 0 < height) : p.shown height (p.row height) = p.last := by
  rw [shown_eq, rows_getElem?, row, if_pos (by omega), Option.getD_some]

theorem shown_type_of_room (h : p.last.length < width) (a : α) (hy : y < height) :
    (p.type width a).shown height y =
      if y = p.row height then p.last ++ [a] else p.shown height y := by
  simp only [shown_eq, type, if_pos h, rows_getElem?, row]
  by_cases hrow : y = min p.done.length (height - 1)
  · rw [if_pos (by omega), if_pos hrow, Option.getD_some]
  · rw [if_neg (by omega), if_neg hrow, if_neg (by omega)]

theorem length_rows (p : Page α) : p.rows.length = p.done.length + 1 := by
  rw [rows, List.length_append, List.length_singleton]

/-- With room below, a new line is one of those that were empty. -/
theorem shown_newLine_of_room (h : p.rows.length < height) (y : Nat) :
    p.newLine.shown height y = p.shown height y := by
  have hlength := p.length_rows
  have hdone : p.newLine.done = p.rows := rfl
  rw [shown_eq, shown_eq, rows_getElem?, hdone, Nat.sub_eq_zero_of_le (by omega),
    Nat.sub_eq_zero_of_le (by omega)]
  split
  · next hy => rw [List.getElem?_eq_none (Nat.le_of_eq hy.symm)]; rfl
  · rfl

/-- At the bottom of the screen everything moves up by a row. -/
theorem shown_newLine_of_full (h : height ≤ p.rows.length) (hy : y < height) :
    p.newLine.shown height y = if y + 1 = height then [] else p.shown height (y + 1) := by
  have hlength := p.length_rows
  have hdone : p.newLine.done = p.rows := rfl
  rw [shown_eq, shown_eq, rows_getElem?, hdone]
  split
  · rw [if_pos (by omega)]
    rfl
  · rw [if_neg (by omega)]
    congr 2
    omega

theorem gone_type_of_room (h : p.last.length < width) (a : α) (hh : 0 < height) :
    (p.type width a).gone height = p.gone height := by
  have hshort : p.done.length + 1 - height ≤ p.done.length := by omega
  simp only [gone, type, if_pos h, List.rdrop, rows, List.length_append, List.length_singleton]
  rw [List.take_append_of_le_length hshort, List.take_append_of_le_length hshort]

theorem rows_newLine (p : Page α) : p.newLine.rows = p.rows ++ [[]] := rfl

theorem gone_eq_nil (h : p.rows.length ≤ height) : p.gone height = [] := by
  rw [gone, List.rdrop, Nat.sub_eq_zero_of_le h, List.take_zero]

theorem gone_newLine_of_room (h : p.rows.length < height) :
    p.newLine.gone height = p.gone height := by
  have hnext : p.newLine.rows.length ≤ height := by
    rw [rows_newLine, List.length_append]
    exact h
  rw [gone_eq_nil hnext, gone_eq_nil (Nat.le_of_lt h)]

theorem gone_newLine_of_full (h : height ≤ p.rows.length) (hh : 0 < height) :
    p.newLine.gone height = p.gone height ++ [p.shown height 0] := by
  have hlt : p.rows.length - height < p.rows.length := by omega
  rw [gone, gone, rows_newLine, List.rdrop, List.rdrop, List.length_append, List.length_singleton,
    Nat.sub_add_comm h, List.take_append_of_le_length (by omega),
    List.take_succ_eq_append_getElem hlt, shown, List.rtake, List.getElem?_drop, Nat.add_zero,
    List.getElem?_eq_getElem hlt, Option.getD_some]

end Page

end TermReplay

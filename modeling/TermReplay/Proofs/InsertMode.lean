import TermReplay.Proofs.CountedEdits
import TermReplay.Proofs.RowRuns

/-!
Insert mode. Each character shifts the rest of its row by one, so a text shifts it by its length
and leaves as many cells to be overwritten: to print in insert mode is to make room first and
then to print over it.
-/

namespace TermReplay

open Shift (within into)

namespace Grid

variable {g : Grid} {width height x y : Nat}

/-- Cells put in where there are as many to push out. -/
theorem Fits.table_insertCells_of_room (h : g.Fits width height) (hy : y < height) {count : Nat}
    (hroom : x + count ≤ width) (cell : Cell) :
    (Nat.repeat (·.insertCell x y cell) count g).table =
      g.table.modify y (Line.mapCells (within x width (into count cell))) := by
  have hcount : min count (width - x) = count := Nat.min_eq_left (by omega)
  cases count with
  | zero =>
      have hsame : ∀ cells : List Cell, cells.length = width →
          id cells = within x width (into 0 cell) cells :=
        fun cells hwidth => (Shift.within_self (by omega) (Nat.le_of_eq hwidth.symm)
          (Shift.into_isShift cell).zero).symm
      exact (List.modify_id y _).symm.trans (h.modify_cells_congr hsame y)
  | succ count => rw [← h.table_insertCells (by omega) hy cell (count + 1), hcount]

/-- A cell put in with room made behind it, and room made for it too with the cell written to
it. -/
theorem Fits.insertCell_behind (h : g.Fits width height) (hy : y < height) {count : Nat}
    (hroom : x + count < width) (cell : Cell) :
    Nat.repeat (·.insertCell (x + 1) y .blank) count (g.insertCell x y cell) =
      (Nat.repeat (·.insertCell x y .blank) (count + 1) g).set x y cell := by
  have hx : x < width := by omega
  have hput : (g.insertCell x y cell).Fits width height := h.insertCell cell hx hy
  have hshifted : (Nat.repeat (·.insertCell x y .blank) (count + 1) g).Fits width height :=
    Terminal.repeat_fits (fun _ hg => hg.insertCell _ hx hy) _ h
  have hone : (g.insertCell x y cell).table =
      g.table.modify y (Line.mapCells (within x width (into 1 cell))) :=
    h.table_insertCells_of_room hy (show x + 1 ≤ width by omega) cell
  have hbehind : (Nat.repeat (·.insertCell (x + 1) y .blank) count
      (g.insertCell x y cell)).Fits width height := by
    cases count with
    | zero => exact hput
    | succ count => exact Terminal.repeat_fits (fun _ hg => hg.insertCell _ (by omega) hy) _ hput
  refine eq_of_table_eq hbehind (hshifted.set x y cell) ?_
  rw [hput.table_insertCells_of_room hy (by omega), hone, hshifted.table_set cell hx hy,
    h.table_insertCells_of_room hy (by omega), List.modify_modify_eq, List.modify_modify_eq,
    Line.mapCells_comp, Line.mapCells_comp]
  refine h.modify_cells_congr (fun cells hwidth => ?_) y
  exact Shift.within_into_behind count .blank cell hx (Nat.le_of_eq hwidth.symm)

/-- Cells inserted one after the other are the same cells written over as many blanks. -/
theorem Fits.writeRun_insertCell (h : g.Fits width height) (hy : y < height) {cells : List Cell}
    (hroom : x + cells.length ≤ width) :
    writeRun (fun x y cell g => g.insertCell x y cell) y x cells g =
      writeRun (fun x y cell g => g.set x y cell) y x cells
        (Nat.repeat (·.insertCell x y .blank) cells.length g) := by
  induction cells generalizing g x with
  | nil => rfl
  | cons cell cells ih =>
      rw [List.length_cons] at hroom
      have hput := h.insertCell cell (show x < width by omega) hy
      rw [writeRun, ih hput (by omega), h.insertCell_behind hy (by omega), List.length_cons,
        writeRun]

end Grid

namespace Terminal

variable {t : Terminal}

def withInsert (t : Terminal) (on : Bool) : Terminal :=
  { t with modes := { t.modes with insert := on } }

theorem withInsert_self (t : Terminal) : t.withInsert t.modes.insert = t := rfl

theorem editLive_withInsert (t : Terminal) (f : Grid → Grid) (on : Bool) :
    (t.withInsert on).editLive f = (t.editLive f).withInsert on := by
  unfold editLive withInsert
  cases hs : t.modes.screen <;> simp only [hs]

theorem writing_of_insert (h : t.modes.insert = true) :
    t.writing = fun x y cell g => g.insertCell x y cell := by
  unfold writing
  simp only [h, if_true]

theorem writing_of_replace (h : t.modes.insert = false) :
    t.writing = fun x y cell g => g.set x y cell := by
  unfold writing
  simp only [h, Bool.false_eq_true, if_false]

/-- Making room for no more cells than there are in the row. -/
theorem insertChars_of_room (hx : t.cursor.x < t.width) {count : Nat}
    (hroom : t.cursor.x + count ≤ t.width) :
    (t.insertChars count).terminal =
      t.editLive (Nat.repeat (·.insertCell t.cursor.x t.cursor.y .blank) count) := by
  have hcolumn : t.column = t.cursor.x := Nat.min_eq_left (Nat.le_sub_one_of_lt hx)
  have hcount : min count (t.width - t.cursor.x) = count := Nat.min_eq_left (by omega)
  rw [insertChars, hcolumn, hcount]
  rfl

/-- With room made and the mode off, the text is written over the room. -/
theorem print_over_room (hx : t.cursor.x < t.width) {text : String}
    (hfit : t.cursor.x + text.length ≤ t.width) :
    (((t.insertChars text.length).terminal.withInsert false).print text).terminal =
      ((t.editLive fun g =>
          Grid.writeRun (fun x y cell g => g.set x y cell) t.cursor.y t.cursor.x
            (text.toList.map t.shownAs)
            (Nat.repeat (·.insertCell t.cursor.x t.cursor.y .blank) text.length g)).withInsert
        false).moveTo (t.cursor.x + text.length) t.cursor.y := by
  let makeRoom : Grid → Grid :=
    Nat.repeat (·.insertCell t.cursor.x t.cursor.y .blank) text.length
  let u := (t.editLive makeRoom).withInsert false
  have hcursor : u.cursor = t.cursor := editLive_cursor t makeRoom
  have hwidth : u.width = t.width := editLive_width t makeRoom
  have hshown : u.shownAs = t.shownAs := by
    have hset : u.designations = t.designations := editLive_designations t makeRoom
    unfold shownAs
    rw [hset, hcursor]
  rw [insertChars_of_room hx hfit, print_of_room (t := u) (by rw [hcursor, hwidth]; exact hfit),
    hcursor, hshown, writing_of_replace (t := u) rfl, editLive_withInsert, editLive_editLive]

/-- Text that finds room in its row can be printed in insert mode, or room can be made for all of
it first and the text then be written over the blanks: the state is the same in every part. -/
theorem insert_then_overwrite (h : t.WellFormed) (hi : t.modes.insert = true)
    (hx : t.cursor.x < t.width) {text : String} (hroom : text.length ≤ t.width - t.cursor.x) :
    (t.obey (.print text)).terminal =
      (obeyAll [.insertChars text.length, .mode (.insert false), .print text,
        .mode (.insert true)] t).terminal := by
  have hfit : t.cursor.x + text.length ≤ t.width := by omega
  let cells := text.toList.map t.shownAs
  let inserting : Grid → Grid :=
    Grid.writeRun (fun x y cell g => g.insertCell x y cell) t.cursor.y t.cursor.x cells
  let overwriting : Grid → Grid := fun g =>
    Grid.writeRun (fun x y cell g => g.set x y cell) t.cursor.y t.cursor.x cells
      (Nat.repeat (·.insertCell t.cursor.x t.cursor.y .blank) text.length g)
  have hrun : t.editLive inserting = t.editLive overwriting := by
    have hlength : cells.length = text.length := by rw [List.length_map, String.length_toList]
    have hgrids := (Fits.live h).writeRun_insertCell (Fits.cursor h).2 (hlength ▸ hfit)
    rw [hlength] at hgrids
    exact editLive_congr hgrids
  have hon : (t.editLive overwriting).withInsert true = t.editLive overwriting := by
    have hself : t.withInsert true = t := hi ▸ t.withInsert_self
    rw [← editLive_withInsert, hself]
  calc (t.print text).terminal
      = (t.editLive inserting).moveTo (t.cursor.x + text.length) t.cursor.y := by
        rw [print_of_room hfit, writing_of_insert hi]
    _ = ((t.editLive overwriting).withInsert true).moveTo (t.cursor.x + text.length)
          t.cursor.y := by
        rw [hrun, hon]
    _ = (((t.insertChars text.length).terminal.withInsert false).print
          text).terminal.withInsert true := by
        rw [print_over_room hx hfit]
        rfl
    _ = (obeyAll [.insertChars text.length, .mode (.insert false), .print text,
          .mode (.insert true)] t).terminal := rfl

/-- Three letters put in at the second of five columns, with a pen and a character set that are
not the first ones, push out the last three of what was there. -/
theorem insert_then_overwrite_of_line_drawing :
    let t := (obeyAll [.print "abcde", .designate .g0 .line, .attribute 7, .goto 1 2,
      .mode (.insert true)] (initial 5 2 1)).terminal
    t.live.rowText 0 = "abcde" ∧
      (t.obey (.print "qxq")).terminal.live.rowText 0 = "a─│─b" ∧
      (t.obey (.print "qxq")).terminal =
        (obeyAll [.insertChars 3, .mode (.insert false), .print "qxq", .mode (.insert true)]
          t).terminal := by
  intro t
  have ht : Reachable t :=
    each_keeps (fun c _ ht => .obey ht c) _
      (.create (show 5 * 2 ≤ Stored.wordLimit by decide) rfl)
  exact ⟨by decide, by decide, insert_then_overwrite ht.wellFormed rfl (by decide) (by decide)⟩

end Terminal

end TermReplay

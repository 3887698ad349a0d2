import TermReplay.Proofs.Drawing
import TermReplay.Proofs.ScrollRegion
import TermReplay.Proofs.TableShifts

/-!
Inserting and deleting by a count. Lines and cells are pushed in or taken out one at a time, as
often as there are some left to lose; all in all that is one shift by the whole count.
-/

namespace TermReplay.Terminal

open Shift (within out into)

variable {t : Terminal}

/-- Lines of the region from the cursor on are shifted. -/
theorem editLines_draws (h : t.WellFormed) (hy : t.margins.Has t.cursor.y) {n : Nat}
    {f : Nat → Nat → Grid → Grid} {table : List Line}
    (hf : ∀ g : Grid, g.Fits t.width t.height →
      (f t.cursor.y t.margins.bottom g).Fits t.width t.height)
    (htable : (Nat.repeat (f t.cursor.y t.margins.bottom)
      (min n (t.margins.bottom + 1 - t.cursor.y)) t.live).table = table) :
    (t.editLines n f).Draws t table
      (t.wholeRows (rowsUpTo t.cursor.y (t.margins.bottom + 1))) := by
  have hinside : ¬(t.cursor.y < t.margins.top ∨ t.margins.bottom < t.cursor.y) :=
    not_or.mpr ⟨Nat.not_lt.mpr hy.1, Nat.not_lt.mpr hy.2⟩
  rw [Nat.succ_sub hy.2] at htable
  rw [editLines, if_neg hinside]
  exact .of_edit (repeat_fits hf _ (Fits.live h)) htable

theorem editLines_outside (hy : ¬t.margins.Has t.cursor.y) (n : Nat)
    (f : Nat → Nat → Grid → Grid) : t.editLines n f = t.quietly := by
  rw [Margins.Has, not_and_or, Nat.not_le, Nat.not_le] at hy
  rw [editLines, if_pos hy]

theorem insertLines_draws (h : t.WellFormed) (hy : t.margins.Has t.cursor.y) (n : Nat) :
    (t.insertLines n).Draws t
      (within t.cursor.y (t.margins.bottom + 1) (into n (.blank t.width)) t.live.table)
      (t.wholeRows (rowsUpTo t.cursor.y (t.margins.bottom + 1))) :=
  editLines_draws h hy (fun _ hg => hg.cycleRows (Fits.margins h).2 (Fits.cursor h).2)
    ((Fits.live h).table_cycleRows_down hy.2 (Fits.margins h).2 n)

theorem deleteLines_draws (h : t.WellFormed) (hy : t.margins.Has t.cursor.y) (n : Nat) :
    (t.deleteLines n).Draws t
      (within t.cursor.y (t.margins.bottom + 1) (out n (.blank t.width)) t.live.table)
      (t.wholeRows (rowsUpTo t.cursor.y (t.margins.bottom + 1))) :=
  editLines_draws h hy (fun _ hg => hg.cycleRows (Fits.cursor h).2 (Fits.margins h).2)
    ((Fits.live h).table_cycleRows_up hy.2 (Fits.margins h).2 n)

theorem insertChars_draws (h : t.WellFormed) (n : Nat) :
    (t.insertChars n).Draws t
      (t.live.table.modify t.cursor.y (Line.mapCells (within t.column t.width (into n .blank))))
      [.change t.cursor.y t.column t.lastColumn] := by
  have hx := Fits.column_lt h
  have hy := (Fits.cursor h).2
  rw [insertChars, editLive_tellingRest]
  exact .of_edit (repeat_fits (fun _ hg => hg.insertCell _ hx hy) _ (Fits.live h))
    ((Fits.live h).table_insertCells hx hy .blank n)

theorem deleteChars_draws (h : t.WellFormed) (n : Nat) :
    (t.deleteChars n).Draws t
      (t.live.table.modify t.cursor.y (Line.mapCells (within t.column t.width (out n .blank))))
      [.change t.cursor.y t.column t.lastColumn] := by
  have hx := Fits.column_lt h
  have hy := (Fits.cursor h).2
  rw [deleteChars, editLive_tellingRest]
  exact .of_edit (repeat_fits (fun _ hg => hg.deleteCell hx hy) _ (Fits.live h))
    ((Fits.live h).table_deleteCells hx hy n)

/-- With the cursor in the scroll region, `n` lines are inserted or deleted by one shift of the
rows from the cursor to the bottom of the region; outside, nothing is done and nothing told.
Characters are inserted and deleted by one shift of the cells from the cursor to the end of its
row. Nothing else is changed, and what is told is that those rows, or those cells, changed. -/
theorem counted_edits_shift (h : t.WellFormed) (n : Nat) :
    let y := t.cursor.y
    let stop := t.margins.bottom + 1
    (t.margins.Has y →
      (t.obey (.insertLines n)).Draws t (within y stop (into n (.blank t.width)) t.live.table)
          (t.wholeRows (rowsUpTo y stop)) ∧
        (t.obey (.deleteLines n)).Draws t (within y stop (out n (.blank t.width)) t.live.table)
          (t.wholeRows (rowsUpTo y stop))) ∧
      (¬t.margins.Has y →
        t.obey (.insertLines n) = t.quietly ∧ t.obey (.deleteLines n) = t.quietly) ∧
      (t.obey (.insertChars n)).Draws t
        (t.live.table.modify y (.mapCells (within t.column t.width (into n .blank))))
        [.change y t.column t.lastColumn] ∧
      (t.obey (.deleteChars n)).Draws t
        (t.live.table.modify y (.mapCells (within t.column t.width (out n .blank))))
        [.change y t.column t.lastColumn] := by
  refine ⟨fun hy => ⟨insertLines_draws h hy n, deleteLines_draws h hy n⟩,
    fun hy => ⟨?_, ?_⟩, insertChars_draws h n, deleteChars_draws h n⟩
  · exact editLines_outside hy n fun y bottom g => g.cycleRows bottom y
  · exact editLines_outside hy n fun y bottom g => g.cycleRows y bottom

/-- Five lines and characters, which are more than there are, with a wrap pending in the scroll
region, and then below it. -/
theorem counted_edits_with_wrap_pending :
    let t := (obeyAll [.print "ab", .goto 3 1, .print "cd", .lineSize { width := .double },
      .goto 4 1, .print "gh", .margins (some 2) (some 3), .goto 2 1, .attribute 7, .print "ef"]
      (initial 2 4 1)).terminal
    let u := (t.obey (.goto 4 2)).terminal
    t.margins = ⟨1, 2⟩ ∧ t.cursor.x = t.width ∧
      (t.obey (.insertLines 5)).Draws t (within 1 3 (into 5 (.blank t.width)) t.live.table)
        (t.wholeRows [1, 2]) ∧
      (t.obey (.deleteLines 5)).Draws t (within 1 3 (out 5 (.blank t.width)) t.live.table)
        (t.wholeRows [1, 2]) ∧
      (t.obey (.insertChars 5)).Draws t
        (t.live.table.modify 1 (.mapCells (within 1 t.width (into 5 .blank)))) [.change 1 1 1] ∧
      (t.obey (.deleteChars 5)).Draws t
        (t.live.table.modify 1 (.mapCells (within 1 t.width (out 5 .blank)))) [.change 1 1 1] ∧
      u.cursor.y = 3 ∧ u.obey (.insertLines 5) = u.quietly ∧
      u.obey (.deleteLines 5) = u.quietly := by
  intro t u
  have hr : Reachable t :=
    each_keeps (fun c _ ht => .obey ht c) _
      (.create (show 2 * 4 ≤ Stored.wordLimit by decide) rfl)
  obtain ⟨hlines, -, hinsert, hdelete⟩ := counted_edits_shift hr.wellFormed 5
  obtain ⟨-, hout, -, -⟩ := counted_edits_shift (hr.obey (.goto 4 2)).wellFormed 5
  obtain ⟨hi, hd⟩ := hlines (by decide)
  exact ⟨rfl, rfl, hi, hd, hinsert, hdelete, rfl, hout (by decide)⟩

end TermReplay.Terminal

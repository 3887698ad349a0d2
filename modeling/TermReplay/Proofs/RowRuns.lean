import TermReplay.Proofs.Preservation

/-!
Text that stays in its row. While there is room no wrap is to be settled, so printing is a run of
edits of the live grid, one for each character and each one column further on, and a move past
the last of them. The mode decides only which edit that is.
-/

namespace TermReplay

/-- Writes cells to a row, one after the other and each one column further on. -/
def Grid.writeRun (edit : Nat → Nat → Cell → Grid → Grid) (y : Nat) :
    Nat → List Cell → Grid → Grid
  | _, [], g => g
  | x, cell :: cells, g => writeRun edit y (x + 1) cells (edit x y cell g)

namespace Terminal

variable {t : Terminal}

/-- Only what an edit makes of the grid on display counts. -/
theorem editLive_congr {f g : Grid → Grid} (h : f t.live = g t.live) :
    t.editLive f = t.editLive g := by
  rw [← editLive_live_const t f, ← editLive_live_const t g, h]

def shownAs (t : Terminal) (char : Char) : Cell :=
  { char := t.designations.translate char, pen := t.cursor.pen }

def writing (t : Terminal) (x y : Nat) (cell : Cell) (g : Grid) : Grid :=
  if t.modes.insert then g.insertCell x y cell else g.set x y cell

theorem place_terminal (t : Terminal) (char : Char) :
    (t.place char).terminal =
      (t.editLive (t.writing t.cursor.x t.cursor.y { char, pen := t.cursor.pen })).moveTo
        (t.cursor.x + 1) t.cursor.y := by
  unfold writing
  rw [place]
  split <;> rfl

theorem printChar_of_room (hx : t.cursor.x < t.width) (char : Char) :
    printChar char t = t.place (t.designations.translate char) := by
  have hsettle : t.settleWrap = t.quietly := by
    rw [settleWrap, if_neg (Nat.ne_of_lt hx)]
  rw [printChar, hsettle]
  rfl

/-- Text for which there is room in the row of the cursor. -/
theorem print_of_room {text : String} (hroom : t.cursor.x + text.length ≤ t.width) :
    (t.print text).terminal =
      (t.editLive (Grid.writeRun t.writing t.cursor.y t.cursor.x
        (text.toList.map t.shownAs))).moveTo (t.cursor.x + text.length) t.cursor.y := by
  rw [← String.length_toList] at hroom ⊢
  rw [print]
  generalize text.toList = chars at hroom ⊢
  induction chars generalizing t with
  | nil => exact congrArg (·.moveTo t.cursor.x t.cursor.y) (editLive_id t).symm
  | cons char chars ih =>
      rw [List.length_cons] at hroom
      let u := (t.editLive (t.writing t.cursor.x t.cursor.y (t.shownAs char))).moveTo
        (t.cursor.x + 1) t.cursor.y
      have hu : (printChar char t).terminal = u := by
        rw [printChar_of_room (by omega)]
        exact place_terminal t _
      have hcursor : u.cursor = t.cursor.moveTo (t.cursor.x + 1) t.cursor.y :=
        congrArg (·.moveTo (t.cursor.x + 1) t.cursor.y) (editLive_cursor t _)
      have hwriting : u.writing = t.writing := by
        have hmodes : u.modes = t.modes := editLive_modes t _
        unfold writing
        rw [hmodes]
      have hshown : u.shownAs = t.shownAs := by
        have hset : u.designations = t.designations := editLive_designations t _
        unfold shownAs
        rw [hset, hcursor]
        rfl
      have hwidth : u.width = t.width := editLive_width t _
      have hx : u.cursor.x = t.cursor.x + 1 := congrArg Cursor.x hcursor
      have hrest := ih (t := u) (by omega)
      rw [each, Reaction.andThen_terminal, hu, hrest, hwriting, hshown, hcursor]
      simp only [u, Cursor.moveTo, editLive_moveTo, editLive_editLive]
      rw [Nat.add_right_comm]
      rfl

end Terminal

end TermReplay

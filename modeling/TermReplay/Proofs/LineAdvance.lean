import TermReplay.Proofs.Reactions

/-!
Going down a row. The cursor moves first and is looked at afterwards, but scrolling does not look
at it, so this comes to a test for the bottom of the region and a move to the row after it. Where
the region is on the screen nothing is left to be limited at its bottom.
-/

namespace TermReplay.Terminal

variable (t : Terminal)

theorem cycleRows_moveTo (remove insert : Nat) (direction : Int) (count x y : Nat) :
    cycleRows remove insert direction count (t.moveTo x y) =
      (cycleRows remove insert direction count t).andThen fun u => (u.moveTo x y).quietly := by
  induction count generalizing t with
  | zero => rfl
  | succ count ih =>
      have hrest := ih (t.editLive (·.cycleRows remove insert))
      rw [cycleRows, cycleRows, editLive_moveTo, Reaction.andThen_assoc]
      exact congrArg (fun r : Reaction => Reaction.mk r.terminal
        ([Notice.scrolled (t.live.rowImage remove) direction] ++ r.notices)) hrest

theorem scrollUp_moveTo (count x y : Nat) :
    (t.moveTo x y).scrollUp count =
      (t.scrollUp count).andThen fun u => (u.moveTo x y).quietly := by
  have hcycle := t.cycleRows_moveTo t.margins.top t.margins.bottom 1 (min count t.regionHeight) x y
  simp only [scrollUp]
  split
  · rfl
  · refine (congrArg (Reaction.andThen · tellingRegion) hcycle).trans ?_
    rw [Reaction.andThen_assoc, Reaction.andThen_assoc]
    refine Reaction.ext_parts rfl ?_
    simp only [Reaction.andThen_notices, quietly, List.nil_append, List.append_nil]
    rfl

theorem scrollUp_terminal (count : Nat) : ∃ f, (t.scrollUp count).terminal = t.editLive f := by
  rw [scrollUp]
  split
  · exact ⟨id, (editLive_id t).symm⟩
  · exact ⟨_, cycleRows_terminal ..⟩

theorem scrollUp_cursor (count : Nat) : (t.scrollUp count).terminal.cursor = t.cursor := by
  obtain ⟨f, hf⟩ := t.scrollUp_terminal count
  rw [hf, editLive_cursor]

theorem scrollUp_height (count : Nat) : (t.scrollUp count).terminal.height = t.height := by
  obtain ⟨f, hf⟩ := t.scrollUp_terminal count
  rw [hf, editLive_height]

/-- A cursor that is moved back after the region was scrolled has not moved at all. -/
theorem scrollUp_from_below (hy : t.cursor.y = t.margins.bottom) :
    (((t.moveTo t.cursor.x (t.cursor.y + 1)).scrollUp 1).andThen fun u =>
      (u.moveTo u.cursor.x t.margins.bottom).quietly) = t.scrollUp 1 := by
  rw [scrollUp_moveTo, Reaction.andThen_assoc]
  refine Reaction.ext_parts ?_ (List.append_nil _)
  have hback := moveTo_self (t.scrollUp 1).terminal
  rw [scrollUp_cursor, hy] at hback
  exact hback

theorem advanceLine_eq :
    t.advanceLine =
      (if t.cursor.y = t.margins.bottom then t.scrollUp 1
        else (t.moveTo t.cursor.x (t.cursor.y + 1)).quietly).andThen fun u =>
          u.limitRow.quietly := by
  rw [advanceLine]
  congr 1
  by_cases hy : t.cursor.y = t.margins.bottom
  · rw [if_pos hy]
    exact (if_pos (congrArg (· + 1) hy)).trans (t.scrollUp_from_below hy)
  · rw [if_neg hy]
    exact if_neg fun hbelow => hy (Nat.succ.inj hbelow)

theorem limitRow_eq_self (hy : t.cursor.y < t.height) : t.limitRow = t := by
  rw [limitRow, if_neg (Nat.not_le.mpr hy), moveTo_self]

theorem advanceLine_of_bottom (hy : t.cursor.y = t.margins.bottom)
    (hb : t.margins.bottom < t.height) : t.advanceLine = t.scrollUp 1 := by
  have hrow : (t.scrollUp 1).terminal.cursor.y < (t.scrollUp 1).terminal.height := by
    rw [scrollUp_cursor, scrollUp_height, hy]
    exact hb
  rw [advanceLine_eq, if_pos hy]
  refine Reaction.ext_parts ?_ (List.append_nil _)
  exact limitRow_eq_self _ hrow

theorem advanceLine_of_room (hy : t.cursor.y ≠ t.margins.bottom) :
    t.advanceLine = (t.moveTo t.cursor.x (min (t.cursor.y + 1) t.lastRow)).quietly := by
  rw [advanceLine_eq, if_neg hy]
  have hrow : (if t.height ≤ t.cursor.y + 1 then t.lastRow else t.cursor.y + 1) =
      min (t.cursor.y + 1) t.lastRow := by
    rw [lastRow]
    split <;> omega
  rw [← hrow]
  rfl

end TermReplay.Terminal

import TermReplay.Proofs.PrintReports
import TermReplay.Proofs.RowRuns

/-!
Moving, scrolling, printing and erasing. All of it comes down to edits of the grid on display and
to places of the cursor, one after the other, so nothing else of the terminal is touched.
-/

namespace TermReplay

/-- `u` differs from `t` at most in the grid on display and in the place of the cursor. -/
def Terminal.DrawnAndMoved (t u : Terminal) : Prop := ∃ f x y, u = (t.editLive f).moveTo x y

namespace Terminal.DrawnAndMoved

variable {t u v : Terminal}

theorem edited (t : Terminal) (f : Grid → Grid) : t.DrawnAndMoved (t.editLive f) :=
  ⟨f, t.cursor.x, t.cursor.y, by rw [← editLive_moveTo, moveTo_self]⟩

theorem moved (t : Terminal) (x y : Nat) : t.DrawnAndMoved (t.moveTo x y) :=
  ⟨id, x, y, by rw [editLive_id]⟩

theorem refl (t : Terminal) : t.DrawnAndMoved t := moved t t.cursor.x t.cursor.y

theorem trans (h : t.DrawnAndMoved u) (h' : u.DrawnAndMoved v) : t.DrawnAndMoved v := by
  obtain ⟨f, x, y, rfl⟩ := h
  obtain ⟨g, x', y', rfl⟩ := h'
  refine ⟨fun grid => g (f grid), x', y', ?_⟩
  rw [editLive_moveTo, editLive_editLive]
  rfl

theorem each {α : Type} {f : α → Terminal → Reaction}
    (step : ∀ a (t : Terminal), t.DrawnAndMoved (f a t).terminal) (xs : List α) (t : Terminal) :
    t.DrawnAndMoved (Terminal.each f xs t).terminal := by
  induction xs generalizing t with
  | nil => exact refl t
  | cons a xs ih => exact (step a t).trans (ih _)

theorem modes (h : t.DrawnAndMoved u) : u.modes = t.modes := by
  obtain ⟨f, x, y, rfl⟩ := h
  exact editLive_modes t f

theorem width (h : t.DrawnAndMoved u) : u.width = t.width := by
  obtain ⟨f, x, y, rfl⟩ := h
  exact editLive_width t f

theorem designations (h : t.DrawnAndMoved u) : u.designations = t.designations := by
  obtain ⟨f, x, y, rfl⟩ := h
  exact editLive_designations t f

/-- Characters are shown with the same pen and through the same character set. -/
theorem shownAs (h : t.DrawnAndMoved u) : u.shownAs = t.shownAs := by
  have hset := h.designations
  obtain ⟨f, x, y, rfl⟩ := h
  have hpen : ((t.editLive f).moveTo x y).cursor.pen = t.cursor.pen := by
    have hcursor := congrArg Cursor.pen (editLive_cursor t f)
    exact hcursor
  unfold Terminal.shownAs
  rw [hset, hpen]

end Terminal.DrawnAndMoved

namespace Terminal

open DrawnAndMoved (edited moved refl)

variable (t : Terminal)

theorem goto_drawnAndMoved (x y : Nat) : t.DrawnAndMoved (t.goto x y).terminal := moved t _ _

theorem arrow_drawnAndMoved (direction : Direction) (count : Nat) :
    t.DrawnAndMoved (t.arrow direction count).terminal := by
  cases direction <;> exact moved t _ _

theorem scrolling_drawnAndMoved (remove insert : Nat) (direction : Int) (count : Nat) :
    t.DrawnAndMoved
      ((cycleRows remove insert direction count t).andThen tellingRegion).terminal := by
  rw [scrolling_eq]
  exact edited t _

theorem scrollUp_drawnAndMoved (count : Nat) : t.DrawnAndMoved (t.scrollUp count).terminal := by
  rw [scrollUp]
  split
  · exact refl t
  · exact scrolling_drawnAndMoved t _ _ _ _

theorem scrollDown_drawnAndMoved (count : Nat) :
    t.DrawnAndMoved (t.scrollDown count).terminal := by
  rw [scrollDown]
  split
  · exact refl t
  · exact scrolling_drawnAndMoved t _ _ _ _

theorem advanceLine_drawnAndMoved : t.DrawnAndMoved t.advanceLine.terminal := by
  rw [advanceLine_eq]
  split
  · exact (scrollUp_drawnAndMoved t 1).trans (moved _ _ _)
  · exact (moved t _ _).trans (moved _ _ _)

theorem index_drawnAndMoved : t.DrawnAndMoved t.index.terminal := by
  rw [index]
  split
  · exact scrollUp_drawnAndMoved t 1
  · split
    · exact moved t _ _
    · exact refl t

theorem reverseIndex_drawnAndMoved : t.DrawnAndMoved t.reverseIndex.terminal := by
  rw [reverseIndex]
  split
  · exact scrollDown_drawnAndMoved t 1
  · split
    · exact moved t _ _
    · exact refl t

theorem nextLine_drawnAndMoved : t.DrawnAndMoved t.nextLine.terminal :=
  (index_drawnAndMoved t).trans (moved _ _ _)

theorem lineFeed_drawnAndMoved : t.DrawnAndMoved t.lineFeed.terminal := by
  refine (advanceLine_drawnAndMoved t).trans ?_
  rw [lineFeed, Reaction.andThen_terminal]
  split
  · exact refl _
  · exact moved _ _ _

theorem settleWrap_drawnAndMoved : t.DrawnAndMoved t.settleWrap.terminal := by
  rw [settleWrap]
  split
  · split
    · exact (moved t _ _).trans (advanceLine_drawnAndMoved _)
    · exact moved t _ _
  · exact refl t

theorem printChar_drawnAndMoved (char : Char) : t.DrawnAndMoved (printChar char t).terminal := by
  refine (settleWrap_drawnAndMoved t).trans ?_
  rw [printChar, Reaction.andThen_terminal, place_terminal]
  exact (edited _ _).trans (moved _ _ _)

theorem print_drawnAndMoved (text : String) : t.DrawnAndMoved (t.print text).terminal :=
  .each (fun char t => printChar_drawnAndMoved t char) text.toList t

theorem blankColumns_drawnAndMoved (first last : Nat) :
    t.DrawnAndMoved (t.blankColumns first last).terminal :=
  edited t (·.blankSpan t.cursor.y first last)

theorem blankRows_drawnAndMoved (first stop : Nat) (order : List Nat → List Nat) :
    t.DrawnAndMoved (t.blankRows first stop order).terminal :=
  edited t (·.blankRows first stop)

theorem eraseInLine_drawnAndMoved (scope : EraseScope) :
    t.DrawnAndMoved (t.eraseInLine scope).terminal := by
  cases scope <;> exact blankColumns_drawnAndMoved t _ _

theorem eraseInDisplay_drawnAndMoved (scope : EraseScope) :
    t.DrawnAndMoved (t.eraseInDisplay scope).terminal := by
  cases scope with
  | toEnd => exact (eraseInLine_drawnAndMoved t .toEnd).trans (blankRows_drawnAndMoved _ _ _ id)
  | toStart =>
      exact (eraseInLine_drawnAndMoved t .toStart).trans
        (blankRows_drawnAndMoved _ _ _ List.reverse)
  | whole => exact blankRows_drawnAndMoved t _ _ id

theorem editLines_drawnAndMoved (count : Nat) (f : Nat → Nat → Grid → Grid) :
    t.DrawnAndMoved (t.editLines count f).terminal := by
  simp only [editLines]
  split
  · exact refl t
  · exact edited t _

end Terminal

/-- Commands that work on the grid on display and on the place of the cursor only. -/
def Command.drawsAndMoves : Command → Bool
  | .backspace | .tab | .carriageReturn | .lineFeed | .verticalTab | .formFeed => true
  | .print _ | .arrow .. | .home | .goto .. | .gotoColumn _ | .gotoRow _ => true
  | .index | .reverseIndex | .nextLine | .scrollUp _ | .scrollDown _ => true
  | .lineSize _ | .eraseInLine _ | .eraseInDisplay _ | .eraseChars _ => true
  | .deleteChars _ | .insertChars _ | .insertLines _ | .deleteLines _ => true
  | _ => false

theorem Terminal.obey_drawnAndMoved (t : Terminal) {c : Command} (hc : c.drawsAndMoves = true) :
    t.DrawnAndMoved (t.obey c).terminal := by
  cases c with
  | backspace | tab | carriageReturn | gotoColumn _ => exact .moved t _ _
  | lineFeed | verticalTab | formFeed => exact lineFeed_drawnAndMoved t
  | print text => exact print_drawnAndMoved t text
  | arrow direction count => exact arrow_drawnAndMoved t direction count
  | home | goto _ _ | gotoRow _ => exact goto_drawnAndMoved t _ _
  | index => exact index_drawnAndMoved t
  | reverseIndex => exact reverseIndex_drawnAndMoved t
  | nextLine => exact nextLine_drawnAndMoved t
  | scrollUp count => exact scrollUp_drawnAndMoved t count
  | scrollDown count => exact scrollDown_drawnAndMoved t count
  | lineSize size => exact .edited t (·.setLineSize t.cursor.y size)
  | deleteChars _ | insertChars _ => exact .edited t _
  | eraseChars count => exact blankColumns_drawnAndMoved t _ _
  | eraseInLine scope => exact eraseInLine_drawnAndMoved t scope
  | eraseInDisplay scope => exact eraseInDisplay_drawnAndMoved t scope
  | insertLines count =>
      exact editLines_drawnAndMoved t count fun y bottom g => g.cycleRows bottom y
  | deleteLines count =>
      exact editLines_drawnAndMoved t count fun y bottom g => g.cycleRows y bottom
  | _ => cases hc

end TermReplay

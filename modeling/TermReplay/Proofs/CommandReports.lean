import TermReplay.Proofs.PrintReports

/-!
Every command reports what it changes: one lemma for each way to erase, shift, resize or switch,
and one case for each command.
-/

namespace TermReplay

open Reaction (Reports)

theorem Modes.screen_of_store? {m modes : Modes} {change : ModeChange}
    (h : m.store? change = some modes) : modes.screen = m.screen := by
  cases change <;> cases h <;> rfl

namespace Terminal

variable {t : Terminal} {width height : Nat}

namespace Fits

theorem blankColumns_reports (h : t.Fits width height) {first last : Nat} (hf : first ≤ last)
    (hl : last < width) : (t.blankColumns first last).Reports t.live width height := by
  refine h.reports_span hf hl ?_ fun g y => Grid.lineSize_blankSpan ..
  intro g x y hg hx hout
  rw [Grid.cell_blankSpan hg hl h.cursor.2 hx, if_neg hout]

theorem eraseInLine_reports (h : t.Fits width height) (scope : EraseScope) :
    (t.eraseInLine scope).Reports t.live width height := by
  cases scope with
  | toStart => exact h.blankColumns_reports (Nat.zero_le _) h.column_lt
  | toEnd => exact h.blankColumns_reports (Nat.min_le_right ..) h.lastColumn_lt
  | whole => exact h.blankColumns_reports (Nat.zero_le _) h.lastColumn_lt

theorem blankRows_reports (h : t.Fits width height) {first stop : Nat} (hs : stop ≤ height)
    {order : List Nat → List Nat} (ho : ∀ rows y, y ∈ order rows ↔ y ∈ rows) :
    (t.blankRows first stop order).Reports t.live width height := by
  refine h.reports_rows (fun _ hn => hn) (h.wholeRows_inside _) ?_ ?_
  · intro g x y hg hx hy
    rw [ho, mem_rowsUpTo] at hy
    rw [Grid.cell_blankRows hg hs hx, if_neg hy]
  · intro g y hg hy
    rw [ho, mem_rowsUpTo] at hy
    rw [Grid.lineSize_blankRows hg hs, if_neg hy]

theorem eraseInDisplay_reports (h : t.Fits width height) (scope : EraseScope) :
    (t.eraseInDisplay scope).Reports t.live width height := by
  simp only [Terminal.eraseInDisplay]
  cases scope with
  | toStart =>
      refine (h.eraseInLine_reports .toStart).andThen ?_
      exact (h.eraseInLine .toStart).blankRows_reports (Nat.le_of_lt h.cursor.2)
        fun _ _ => List.mem_reverse
  | toEnd =>
      have hl := h.eraseInLine .toEnd
      refine (h.eraseInLine_reports .toEnd).andThen ?_
      exact hl.blankRows_reports (Nat.le_of_eq hl.height_eq) fun _ _ => Iff.rfl
  | whole => exact h.blankRows_reports (Nat.le_of_eq h.height_eq) fun _ _ => Iff.rfl

/-- Edits of the cursor row that leave what is before the cursor. -/
theorem rest_reports (h : t.Fits width height) {f : Grid → Grid} (count : Nat)
    (hfits : ∀ g : Grid, g.Fits width height → (f g).Fits width height)
    (hcell : ∀ (g : Grid) x y, g.Fits width height → x < width →
      ¬(y = t.cursor.y ∧ t.column ≤ x) → (f g).cell x y = g.cell x y)
    (hsize : ∀ (g : Grid) y, (f g).lineSize y = g.lineSize y) :
    (t.editLive (Nat.repeat f count)).tellingRest.Reports t.live width height := by
  rw [editLive_tellingRest]
  refine h.reports_span (Nat.min_le_right ..) h.lastColumn_lt ?_ ?_
  · intro g x y hg hx hout
    refine repeat_keeps (v := fun g => g.cell x y) hfits (fun g hg => hcell g x y hg hx ?_) _ hg
    have hw := h.width_eq
    simp only [lastColumn] at hout
    omega
  · intro g y
    induction count with
    | zero => rfl
    | succ count ih => exact (hsize _ y).trans ih

theorem deleteChars_reports (h : t.Fits width height) (count : Nat) :
    (t.deleteChars count).Reports t.live width height := by
  refine h.rest_reports _ (fun g hg => hg.deleteCell h.column_lt h.cursor.2) ?_
    fun _ _ => Grid.lineSize_deleteCell ..
  intro g x y hg hx hout
  rw [Grid.cell_deleteCell hg h.column_lt h.cursor.2 hx, if_neg hout]

theorem insertChars_reports (h : t.Fits width height) (count : Nat) :
    (t.insertChars count).Reports t.live width height := by
  refine h.rest_reports _ (fun g hg => hg.insertCell _ h.column_lt h.cursor.2) ?_
    fun _ _ => Grid.lineSize_insertCell ..
  intro g x y hg hx hout
  rw [Grid.cell_insertCell hg _ h.column_lt h.cursor.2 hx, if_neg hout]

theorem eraseChars_reports (h : t.Fits width height) (count : Nat) :
    (t.eraseChars count).Reports t.live width height := by
  have hcolumn : t.column ≤ t.lastColumn := Nat.min_le_right ..
  refine h.blankColumns_reports ?_ (Nat.lt_of_le_of_lt (Nat.min_le_right ..) h.lastColumn_lt)
  omega

/-- Lines are cycled between the cursor row and the bottom of the region. -/
theorem editLines_reports (h : t.Fits width height) (count : Nat)
    {remove insert : Nat → Nat → Nat}
    (hends : ∀ y bottom, (remove y bottom = y ∧ insert y bottom = bottom) ∨
      (remove y bottom = bottom ∧ insert y bottom = y)) :
    (t.editLines count fun y bottom g =>
      g.cycleRows (remove y bottom) (insert y bottom)).Reports t.live width height := by
  have hbottom := h.margins.2
  have hy := h.cursor.2
  simp only [editLines]
  split
  · exact quietly_reports t
  · next hin =>
      obtain ⟨hr, hi, hout⟩ : remove t.cursor.y t.margins.bottom < height ∧
          insert t.cursor.y t.margins.bottom < height ∧
          ∀ row, row ∉ rowsUpTo t.cursor.y (t.margins.bottom + 1) →
            row < min (remove t.cursor.y t.margins.bottom) (insert t.cursor.y t.margins.bottom) ∨
              max (remove t.cursor.y t.margins.bottom) (insert t.cursor.y t.margins.bottom) <
                row := by
        simp only [mem_rowsUpTo]
        obtain ⟨hr, hi⟩ | ⟨hr, hi⟩ := hends t.cursor.y t.margins.bottom
        · rw [hr, hi]
          exact ⟨hy, hbottom, fun row hrow => by omega⟩
        · rw [hr, hi]
          exact ⟨hbottom, hy, fun row hrow => by omega⟩
      refine h.reports_rows (fun _ hn => hn) (h.wholeRows_inside _) ?_ ?_
      · intro g x row hg hx hrow
        exact cell_repeat_cycleRows hg hr hi _ hx (hout row hrow)
      · intro g row hg hrow
        exact lineSize_repeat_cycleRows hg hr hi _ (hout row hrow)

theorem insertLines_reports (h : t.Fits width height) (count : Nat) :
    (t.insertLines count).Reports t.live width height := by
  simp only [Terminal.insertLines]
  exact h.editLines_reports count fun _ _ => .inr ⟨rfl, rfl⟩

theorem deleteLines_reports (h : t.Fits width height) (count : Nat) :
    (t.deleteLines count).Reports t.live width height := by
  simp only [Terminal.deleteLines]
  exact h.editLines_reports count fun _ _ => .inl ⟨rfl, rfl⟩

theorem setLineSize_reports (h : t.Fits width height) (size : LineSize) :
    (t.setLineSize size).Reports t.live width height := by
  refine h.reports_rows (fun _ hn => hn) (h.wholeRows_inside _) (fun _ _ _ _ _ _ => rfl) ?_
  intro g y hg hy
  rw [Grid.lineSize_setLineSize hg h.cursor.2, if_neg (mt List.mem_singleton.mpr hy)]

/-- Every row is told in front. -/
theorem everyRow_reports (h : t.Fits width height) {before : Grid} {r : Reaction}
    {more : List Notice}
    (hn : r.notices = t.wholeRows (rowsUpTo 0 t.height) ++ more)
    (hm : SpansInside more width) : r.Reports before width height := by
  refine .of_every_row ?_ ?_
  · intro y hy
    rw [hn]
    refine List.mem_append_left _ (mem_wholeRows.mpr ⟨?_, rfl, ?_⟩)
    · rw [mem_rowsUpTo, h.height_eq]
      exact ⟨Nat.zero_le y, hy⟩
    · rw [lastColumn, h.width_eq]
  · rw [hn]
    exact (h.wholeRows_inside _).append hm

theorem alignScreen_reports (h : t.Fits width height) :
    t.alignScreen.Reports t.live width height := by
  have ha : ({ t.editLive (·.fill 'E') with margins := Margins.full t.height }.moveTo 0 0).Fits
      width height := h.alignScreen
  exact ha.everyRow_reports rfl (spansInside_other rfl)

theorem reset_reports (h : t.Fits width height) : t.reset.Reports t.live width height := by
  have hi : (initial t.width t.height t.saved.depth).Fits width height := h.reset
  exact hi.everyRow_reports rfl (spansInside_other rfl)

theorem changeMode_reports (h : t.Fits width height) (change : ModeChange) :
    (t.changeMode change).Reports t.live width height := by
  simp only [Terminal.changeMode]
  split
  · next kind =>
      have hs : { t with modes := { t.modes with screen := kind } }.Fits width height := { h with }
      exact hs.everyRow_reports rfl (spansInside_other rfl)
  · split
    · next modes hm =>
        refine .of_live_eq ?_ ?_
        · simp only [telling_terminal, Terminal.live, Terminal.grid, Modes.screen_of_store? hm]
        · exact spansInside_other rfl
    · exact .of_live_eq rfl (spansInside_other rfl)

theorem restoreCursor_reports (t : Terminal) :
    t.restoreCursor.Reports t.live width height := by
  simp only [Terminal.restoreCursor]
  split
  · exact .of_live_eq rfl (spansInside_other rfl)
  · exact tellingCursor_reports t

theorem applyAttribute_reports (t : Terminal) (code : Nat) :
    (t.applyAttribute code).Reports t.live width height := by
  simp only [Terminal.applyAttribute]
  split
  · exact .of_live_eq rfl spansInside_nil
  · exact .of_live_eq rfl (spansInside_other rfl)

theorem setWindowTitle_reports (t : Terminal) (title : String) :
    (t.setWindowTitle title).Reports t.live width height :=
  .of_live_eq rfl (spansInside_other rfl)

theorem setIconTitle_reports (t : Terminal) (title : String) :
    (t.setIconTitle title).Reports t.live width height :=
  .of_live_eq rfl (spansInside_other rfl)

theorem obey_reports (h : t.Fits width height) (c : Command) :
    (t.obey c).Reports t.live width height := by
  cases c with
  | bell | singleShift _ _ | report _ => exact .of_live_eq rfl (spansInside_other rfl)
  | backspace | tab | carriageReturn | gotoColumn _ => exact .of_live_eq rfl (spansInside_other rfl)
  | arrow direction _ => cases direction <;> exact .of_live_eq rfl (spansInside_other rfl)
  | home | goto _ _ | gotoRow _ => exact .of_live_eq rfl (spansInside_other rfl)
  | origin _ | margins _ _ | resetMargins => exact .of_live_eq rfl (spansInside_other rfl)
  | lineFeed | verticalTab | formFeed => exact h.lineFeed_reports
  | useSlot _ | designate _ _ | saveCursor => exact .of_live_eq rfl spansInside_nil
  | setTab | clearTab | clearAllTabs => exact .of_live_eq rfl spansInside_nil
  | ledsOff | led _ | softReset | selfTest _ => exact .of_live_eq rfl spansInside_nil
  | print text => exact h.print_reports text
  | index => exact h.index_reports
  | reverseIndex => exact h.reverseIndex_reports
  | nextLine => exact h.nextLine_reports
  | restoreCursor => exact restoreCursor_reports t
  | mode change => exact h.changeMode_reports change
  | lineSize size => exact h.setLineSize_reports size
  | eraseInLine scope => exact h.eraseInLine_reports scope
  | eraseInDisplay scope => exact h.eraseInDisplay_reports scope
  | deleteChars count => exact h.deleteChars_reports count
  | insertChars count => exact h.insertChars_reports count
  | eraseChars count => exact h.eraseChars_reports count
  | insertLines count => exact h.insertLines_reports count
  | deleteLines count => exact h.deleteLines_reports count
  | scrollUp count => exact h.scrollUp_reports count
  | scrollDown count => exact h.scrollDown_reports count
  | windowTitle title => exact setWindowTitle_reports t title
  | iconTitle title => exact setIconTitle_reports t title
  | bothTitles title =>
      show ((t.setWindowTitle title).andThen (·.setIconTitle title)).Reports t.live width height
      exact Reports.andThen (setWindowTitle_reports t title) (setIconTitle_reports _ title)
  | reset => exact h.reset_reports
  | «attribute» code => exact applyAttribute_reports t code
  | screenAlignment => exact h.alignScreen_reports

end Fits

end Terminal

end TermReplay

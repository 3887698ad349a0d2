import TermReplay.Proofs.LineAdvance
import TermReplay.Proofs.WellFormed

/-!
Every command leaves a terminal whose parts fit together, whatever its counts and texts: one
lemma for each way to move or to edit, and one case for each command.
-/

namespace TermReplay

namespace Terminal

variable {t : Terminal} {width height : Nat}

theorem Fits.goto (h : t.Fits width height) (x y : Nat) :
    (t.goto x y).terminal.Fits width height := by
  have hcolumn := h.lastColumn_lt
  have hrow := h.lastRow_lt
  obtain ⟨htop, hbottom⟩ := h.margins
  apply h.moveTo
  · omega
  · split <;> omega

theorem Fits.arrow (h : t.Fits width height) (direction : Direction) (count : Nat) :
    (t.arrow direction count).terminal.Fits width height := by
  obtain ⟨hx, hy⟩ := h.cursor
  obtain ⟨hfirst, hlast⟩ := h.rowBounds_lt
  have hcolumn := h.lastColumn_lt
  cases direction with
  | up => exact h.moveTo hx (Nat.max_lt.mpr ⟨by omega, hfirst⟩)
  | down => exact h.moveTo hx (Nat.lt_of_le_of_lt (Nat.min_le_right ..) hlast)
  | left => exact h.moveTo (by omega) hy
  | right => exact h.moveTo (by omega) hy

theorem Fits.cycleRows {remove insert : Nat} (hr : remove < height) (hi : insert < height)
    (direction : Int) (count : Nat) (h : t.Fits width height) :
    (cycleRows remove insert direction count t).terminal.Fits width height := by
  induction count generalizing t with
  | zero => exact h
  | succ count ih => exact ih (h.editLive fun g hg => hg.cycleRows hr hi)

theorem Fits.scrollUp (h : t.Fits width height) (count : Nat) :
    (t.scrollUp count).terminal.Fits width height := by
  obtain ⟨htop, hbottom⟩ := h.margins
  simp only [Terminal.scrollUp]
  split
  · exact h
  · exact h.cycleRows (Nat.lt_trans htop hbottom) hbottom 1 _

theorem Fits.scrollDown (h : t.Fits width height) (count : Nat) :
    (t.scrollDown count).terminal.Fits width height := by
  obtain ⟨htop, hbottom⟩ := h.margins
  simp only [Terminal.scrollDown]
  split
  · exact h
  · exact h.cycleRows hbottom (Nat.lt_trans htop hbottom) (-1) _

/-- The region is on the screen, so a line feed tests for its bottom and then moves. -/
theorem Fits.advanceLine_eq (h : t.Fits width height) :
    t.advanceLine =
      if t.cursor.y = t.margins.bottom then t.scrollUp 1
      else (t.moveTo t.cursor.x (min (t.cursor.y + 1) t.lastRow)).quietly := by
  split
  · next hy => exact t.advanceLine_of_bottom hy (h.height_eq ▸ h.margins.2)
  · next hy => exact t.advanceLine_of_room hy

theorem Fits.advanceLine (h : t.Fits width height) :
    t.advanceLine.terminal.Fits width height := by
  have hrow := h.lastRow_lt
  rw [h.advanceLine_eq]
  split
  · exact h.scrollUp 1
  · exact h.moveTo h.cursor.1 (by omega)

theorem Fits.index (h : t.Fits width height) : t.index.terminal.Fits width height := by
  have hh := h.height_eq
  simp only [Terminal.index]
  split
  · exact h.scrollUp 1
  · split
    · exact h.moveTo h.cursor.1 (by omega)
    · exact h

theorem Fits.reverseIndex (h : t.Fits width height) :
    t.reverseIndex.terminal.Fits width height := by
  obtain ⟨hx, hy⟩ := h.cursor
  simp only [Terminal.reverseIndex]
  split
  · exact h.scrollDown 1
  · split
    · exact h.moveTo hx (by omega)
    · exact h

theorem Fits.returnCarriage (h : t.Fits width height) :
    t.returnCarriage.terminal.Fits width height :=
  h.moveTo (Nat.zero_le _) h.cursor.2

theorem Fits.nextLine (h : t.Fits width height) : t.nextLine.terminal.Fits width height :=
  h.index.returnCarriage

theorem Fits.lineFeed (h : t.Fits width height) : t.lineFeed.terminal.Fits width height := by
  have ha := h.advanceLine
  simp only [Terminal.lineFeed, Reaction.andThen_terminal]
  split
  · exact ha
  · exact ha.returnCarriage

theorem nextStop_le (t : Terminal) : t.nextStop ≤ t.width := by
  simp only [nextStop, rowsUpTo]
  cases hf : (List.range' (t.cursor.x + 1) (t.width - (t.cursor.x + 1))).find?
      (fun x => t.tabs[x]?.getD false) with
  | none => exact Nat.le_refl _
  | some x =>
      have hm := List.mem_of_find?_eq_some hf
      rw [List.mem_range'_1] at hm
      simp only [Option.getD_some]
      omega

theorem marginsFor_inside (hh : 2 ≤ height) (top bottom : Option Nat) :
    (marginsFor height top bottom).Inside height := by
  unfold marginsFor
  extract_lets fromEdge a b c d e
  simp only [Margins.Inside, c, d, e]
  by_cases hab : b ≤ a + 1
  · simp only [if_pos hab]
    split <;> omega
  · simp only [if_neg hab]
    split <;> omega

theorem Fits.setMargins (h : t.Fits width height) (top bottom : Option Nat) :
    (t.setMargins top bottom).terminal.Fits width height := by
  have hm : { t with margins := marginsFor t.height top bottom }.Fits width height :=
    { h with margins := h.height_eq ▸ marginsFor_inside h.two_rows top bottom }
  exact hm.goto 0 0

theorem advanceLine_x (t : Terminal) : t.advanceLine.terminal.cursor.x = t.cursor.x := by
  rw [advanceLine_eq]
  split
  · show (t.scrollUp 1).terminal.cursor.x = t.cursor.x
    rw [scrollUp_cursor]
  · rfl

/-- Once the wrap is settled, the cursor is on a cell. -/
theorem Fits.settleWrap (h : t.Fits width height) :
    t.settleWrap.terminal.Fits width height ∧ t.settleWrap.terminal.cursor.x < width := by
  obtain ⟨hx, hy⟩ := h.cursor
  have hw := h.width_eq
  have hpos := h.width_pos
  have hcolumn := h.lastColumn_lt
  simp only [Terminal.settleWrap]
  split
  · split
    · have hstart := h.moveTo (Nat.zero_le width) hy
      refine ⟨hstart.advanceLine, ?_⟩
      rw [advanceLine_x]
      exact hpos
    · exact ⟨h.moveTo (Nat.le_of_lt hcolumn) hy, hcolumn⟩
  · exact ⟨h, by simp only [quietly_terminal]; omega⟩

theorem Fits.place (h : t.Fits width height) (hx : t.cursor.x < width) (char : Char) :
    (t.place char).terminal.Fits width height := by
  have hy := h.cursor.2
  simp only [Terminal.place]
  split
  · exact (h.editLive fun g hg => hg.insertCell _ hx hy).moveTo hx hy
  · exact (h.editLive fun g hg => hg.set _ _ _).moveTo hx hy

theorem Fits.printChar (h : t.Fits width height) (char : Char) :
    (printChar char t).terminal.Fits width height := by
  obtain ⟨hs, hx⟩ := h.settleWrap
  exact hs.place hx _

theorem Fits.print (h : t.Fits width height) (text : String) :
    (t.print text).terminal.Fits width height :=
  each_keeps (P := (·.Fits width height)) (fun char _ ht => ht.printChar char) text.toList h

theorem Fits.blankColumns (h : t.Fits width height) {first last : Nat} (hl : last < width) :
    (t.blankColumns first last).terminal.Fits width height :=
  h.editLive fun _ hg => hg.blankSpan hl h.cursor.2

theorem Fits.eraseInLine (h : t.Fits width height) (scope : EraseScope) :
    (t.eraseInLine scope).terminal.Fits width height := by
  cases scope with
  | toStart => exact h.blankColumns h.column_lt
  | toEnd => exact h.blankColumns h.lastColumn_lt
  | whole => exact h.blankColumns h.lastColumn_lt

theorem Fits.blankRows (h : t.Fits width height) {first stop : Nat} (hs : stop ≤ height)
    (order : List Nat → List Nat) :
    (t.blankRows first stop order).terminal.Fits width height :=
  h.editLive fun _ hg => hg.blankRows hs

theorem Fits.eraseInDisplay (h : t.Fits width height) (scope : EraseScope) :
    (t.eraseInDisplay scope).terminal.Fits width height := by
  cases scope with
  | toStart => exact (h.eraseInLine .toStart).blankRows (Nat.le_of_lt h.cursor.2) List.reverse
  | toEnd =>
      have hl := h.eraseInLine .toEnd
      exact hl.blankRows (Nat.le_of_eq hl.height_eq) id
  | whole => exact h.blankRows (Nat.le_of_eq h.height_eq) id

theorem repeat_fits {f : Grid → Grid} (hf : ∀ g : Grid, g.Fits width height →
    (f g).Fits width height) (count : Nat) {g : Grid} (hg : g.Fits width height) :
    (Nat.repeat f count g).Fits width height := by
  induction count with
  | zero => exact hg
  | succ count ih => exact hf _ ih

theorem Fits.deleteChars (h : t.Fits width height) (count : Nat) :
    (t.deleteChars count).terminal.Fits width height :=
  h.editLive fun _ hg =>
    repeat_fits (fun _ hg => hg.deleteCell h.column_lt h.cursor.2) _ hg

theorem Fits.insertChars (h : t.Fits width height) (count : Nat) :
    (t.insertChars count).terminal.Fits width height :=
  h.editLive fun _ hg =>
    repeat_fits (fun _ hg => hg.insertCell _ h.column_lt h.cursor.2) _ hg

theorem Fits.eraseChars (h : t.Fits width height) (count : Nat) :
    (t.eraseChars count).terminal.Fits width height :=
  h.blankColumns (Nat.lt_of_le_of_lt (Nat.min_le_right ..) h.lastColumn_lt)

theorem Fits.insertLines (h : t.Fits width height) (count : Nat) :
    (t.insertLines count).terminal.Fits width height := by
  simp only [Terminal.insertLines, editLines]
  split
  · exact h
  · exact h.editLive fun _ hg =>
      repeat_fits (fun _ hg => hg.cycleRows h.margins.2 h.cursor.2) _ hg

theorem Fits.deleteLines (h : t.Fits width height) (count : Nat) :
    (t.deleteLines count).terminal.Fits width height := by
  simp only [Terminal.deleteLines, editLines]
  split
  · exact h
  · exact h.editLive fun _ hg =>
      repeat_fits (fun _ hg => hg.cycleRows h.cursor.2 h.margins.2) _ hg

theorem Fits.fullMargins (h : t.Fits width height) :
    (Margins.full t.height).Inside height := by
  rw [h.height_eq]
  exact Margins.full_inside h.two_rows

theorem Fits.alignScreen (h : t.Fits width height) :
    t.alignScreen.terminal.Fits width height := by
  have hf : (t.editLive (·.fill 'E')).Fits width height := h.editLive fun _ hg => hg.fill 'E'
  have hm : { t.editLive (·.fill 'E') with margins := Margins.full t.height }.Fits width height :=
    { hf with margins := h.fullMargins }
  exact hm.moveTo (Nat.zero_le _) (Nat.zero_lt_of_lt h.cursor.2)

theorem Fits.changeMode (h : t.Fits width height) (change : ModeChange) :
    (t.changeMode change).terminal.Fits width height := by
  simp only [Terminal.changeMode]
  split
  · exact { h with }
  · split
    · exact { h with }
    · exact h

theorem Fits.restoreCursor (h : t.Fits width height) :
    t.restoreCursor.terminal.Fits width height := by
  simp only [Terminal.restoreCursor]
  split
  · next c saved hp =>
      obtain ⟨hc, hs⟩ := SavedCursors.pop_fits h.saved hp
      exact { h with cursor := hc, saved := hs }
  · exact h

theorem applyAttribute_position {c c' : Cursor} {code : Nat}
    (h : c.applyAttribute? code = some c') : c'.x = c.x ∧ c'.y = c.y := by
  have hr : ∀ on, (c.setReversed on).x = c.x ∧ (c.setReversed on).y = c.y := by
    intro on
    unfold Cursor.setReversed
    split <;> exact ⟨rfl, rfl⟩
  unfold Cursor.applyAttribute? at h
  split at h
  all_goals first
    | (cases h; exact ⟨rfl, rfl⟩)
    | (cases h; exact hr _)
    | skip
  split at h
  · cases h
    exact ⟨rfl, rfl⟩
  · split at h
    · cases h
      exact ⟨rfl, rfl⟩
    · cases h

theorem Fits.applyAttribute (h : t.Fits width height) (code : Nat) :
    (t.applyAttribute code).terminal.Fits width height := by
  simp only [Terminal.applyAttribute]
  split
  · next c hc =>
      obtain ⟨hx, hy⟩ := applyAttribute_position hc
      exact h.setCursor ⟨hx ▸ h.cursor.1, hy ▸ h.cursor.2⟩
  · exact h

theorem Fits.softReset (h : t.Fits width height) : t.softReset.terminal.Fits width height :=
  { h with
    margins := h.fullMargins
    cursor := h.cursor
    saved := SavedCursors.clear_fits h.saved }

theorem Fits.reset (h : t.Fits width height) : t.reset.terminal.Fits width height := by
  have hi : (initial t.width t.height t.saved.depth).Fits t.width t.height :=
    initial_fits (h.width_eq ▸ h.width_pos) (h.height_eq ▸ h.two_rows)
  rw [← h.width_eq, ← h.height_eq]
  exact hi

/-- After a command every part still fits the size, which no command changes. -/
theorem Fits.obey (h : t.Fits width height) (c : Command) :
    (t.obey c).terminal.Fits width height := by
  obtain ⟨hx, hy⟩ := h.cursor
  have hcolumn := h.lastColumn_lt
  cases c with
  | bell => exact h
  | backspace => exact h.moveTo (by omega) hy
  | tab => exact h.moveTo (h.width_eq ▸ t.nextStop_le) hy
  | lineFeed | verticalTab | formFeed => exact h.lineFeed
  | carriageReturn => exact h.returnCarriage
  | useSlot _ | designate _ _ => exact { h with }
  | print text => exact h.print text
  | arrow direction count => exact h.arrow direction count
  | home => exact h.goto 0 0
  | goto row col => exact h.goto _ _
  | gotoColumn col => exact h.moveTo (by omega) hy
  | gotoRow row => exact h.goto _ _
  | index => exact h.index
  | reverseIndex => exact h.reverseIndex
  | nextLine => exact h.nextLine
  | saveCursor => exact { h with saved := SavedCursors.push_fits h.saved h.cursor }
  | restoreCursor => exact h.restoreCursor
  | mode change => exact h.changeMode change
  | origin origin =>
      have ho : { t with modes := { t.modes with origin } }.Fits width height := { h with }
      exact ho.goto 0 0
  | singleShift _ _ => exact h
  | setTab | clearTab => exact { h with tabs := Array.size_setIfInBounds.trans h.tabs }
  | clearAllTabs => exact { h with tabs := Array.size_replicate.trans h.tabs }
  | lineSize size => exact h.editLive fun _ hg => hg.setLineSize _ _
  | eraseInLine scope => exact h.eraseInLine scope
  | eraseInDisplay scope => exact h.eraseInDisplay scope
  | deleteChars count => exact h.deleteChars count
  | insertChars count => exact h.insertChars count
  | eraseChars count => exact h.eraseChars count
  | insertLines count => exact h.insertLines count
  | deleteLines count => exact h.deleteLines count
  | scrollUp count => exact h.scrollUp count
  | scrollDown count => exact h.scrollDown count
  | report _ => exact h
  | ledsOff | led _ => exact { h with }
  | windowTitle _ | iconTitle _ | bothTitles _ => exact { h with }
  | margins top bottom => exact h.setMargins top bottom
  | resetMargins => exact h.setMargins none none
  | softReset => exact h.softReset
  | reset => exact h.reset
  | «attribute» code => exact h.applyAttribute code
  | selfTest _ => exact h
  | screenAlignment => exact h.alignScreen

end Terminal

end TermReplay

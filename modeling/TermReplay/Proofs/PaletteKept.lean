import TermReplay.Proofs.FullScreen
import TermReplay.Proofs.Palette

/-!
No command leads out of the palette: what it draws, what it makes of the cursor and of the saved
ones, and the rows that it tells all keep to it. The attribute codes name no other colours, and
reverse video swaps the two of the pen. There is one lemma for each way to move or to edit, and one
case for each command.
-/

namespace TermReplay

theorem Reaction.InPalette.andThen {r : Reaction} {f : Terminal → Reaction} (hr : r.InPalette)
    (hf : r.terminal.InPalette → (f r.terminal).InPalette) : (r.andThen f).InPalette where
  terminal := (hf hr.terminal).terminal
  notices := by
    intro n hn
    obtain hn | hn := List.mem_append.mp hn
    · exact hr.notices n hn
    · exact (hf hr.terminal).notices n hn

namespace Terminal

variable {t : Terminal}

theorem wholeRows_inPalette {rows : List Nat} {n : Notice} (hn : n ∈ t.wholeRows rows) :
    n.InPalette := by
  obtain ⟨y, -, rfl⟩ := List.mem_map.mp hn
  trivial

namespace InPalette

theorem telling (h : t.InPalette) {notices : List Notice} (hn : ∀ n ∈ notices, n.InPalette) :
    (t.telling notices).InPalette :=
  ⟨h, hn⟩

theorem tellingOne (h : t.InPalette) {n : Notice} (hn : n.InPalette) :
    (t.telling [n]).InPalette :=
  h.telling fun _ hm => List.mem_singleton.mp hm ▸ hn

theorem quietly (h : t.InPalette) : t.quietly.InPalette := h.telling nofun

theorem tellingCursor (h : t.InPalette) : t.tellingCursor.InPalette := h.tellingOne trivial

theorem warning (h : t.InPalette) (message : String) : (t.warning message).InPalette :=
  h.tellingOne trivial

theorem moveTo (h : t.InPalette) (x y : Nat) : (t.moveTo x y).InPalette := { h with }

theorem live (h : t.InPalette) : t.live.InPalette := h.grids _

theorem editLive (h : t.InPalette) {f : Grid → Grid}
    (hf : ∀ g : Grid, g.InPalette → (f g).InPalette) : (t.editLive f).InPalette := by
  unfold Terminal.editLive
  cases t.modes.screen with
  | primary =>
      refine { h with grids := fun kind => ?_ }
      cases kind with
      | primary => exact hf _ (h.grids .primary)
      | alternate => exact h.grids .alternate
  | alternate =>
      refine { h with grids := fun kind => ?_ }
      cases kind with
      | primary => exact h.grids .primary
      | alternate => exact hf _ (h.grids .alternate)

theorem goto (h : t.InPalette) (x y : Nat) : (t.goto x y).InPalette := (h.moveTo _ _).tellingCursor

theorem arrow (h : t.InPalette) (direction : Direction) (count : Nat) :
    (t.arrow direction count).InPalette := by
  cases direction <;> exact (h.moveTo _ _).tellingCursor

theorem cycleRows (remove insert : Nat) (direction : Int) (count : Nat) (h : t.InPalette) :
    (cycleRows remove insert direction count t).InPalette := by
  induction count generalizing t with
  | zero => exact h.quietly
  | succ count ih =>
      have hedit := h.editLive fun _ hg => hg.cycleRows remove insert
      have himage : (Notice.scrolled (t.live.rowImage remove) direction).InPalette :=
        h.live.rowImage remove
      exact (hedit.tellingOne himage).andThen ih

theorem tellingRegion (h : t.InPalette) : t.tellingRegion.InPalette :=
  h.telling fun _ => wholeRows_inPalette

theorem scrollUp (h : t.InPalette) (count : Nat) : (t.scrollUp count).InPalette := by
  rw [Terminal.scrollUp]
  split
  · exact h.quietly
  · exact (h.cycleRows ..).andThen tellingRegion

theorem scrollDown (h : t.InPalette) (count : Nat) : (t.scrollDown count).InPalette := by
  rw [Terminal.scrollDown]
  split
  · exact h.quietly
  · exact (h.cycleRows ..).andThen tellingRegion

theorem advanceLine (h : t.InPalette) : t.advanceLine.InPalette := by
  rw [advanceLine_eq]
  refine Reaction.InPalette.andThen ?_ fun h => (h.moveTo _ _).quietly
  split
  · exact h.scrollUp 1
  · exact (h.moveTo _ _).quietly

theorem index (h : t.InPalette) : t.index.InPalette := by
  rw [Terminal.index]
  split
  · exact h.scrollUp 1
  · split
    · exact (h.moveTo _ _).tellingCursor
    · exact h.quietly

theorem reverseIndex (h : t.InPalette) : t.reverseIndex.InPalette := by
  rw [Terminal.reverseIndex]
  split
  · exact h.scrollDown 1
  · split
    · exact (h.moveTo _ _).tellingCursor
    · exact h.quietly

theorem returnCarriage (h : t.InPalette) : t.returnCarriage.InPalette :=
  (h.moveTo _ _).tellingCursor

theorem nextLine (h : t.InPalette) : t.nextLine.InPalette := h.index.andThen returnCarriage

theorem lineFeed (h : t.InPalette) : t.lineFeed.InPalette := by
  refine h.advanceLine.andThen fun h => ?_
  split
  · exact h.tellingCursor
  · exact h.returnCarriage

theorem settleWrap (h : t.InPalette) : t.settleWrap.InPalette := by
  rw [Terminal.settleWrap]
  split
  · split
    · exact (h.moveTo _ _).advanceLine
    · exact (h.moveTo _ _).quietly
  · exact h.quietly

theorem place (h : t.InPalette) (char : Char) : (t.place char).InPalette := by
  simp only [Terminal.place]
  split
  · refine Reaction.InPalette.andThen ?_ fun h => (h.moveTo _ _).tellingCursor
    exact (h.editLive fun _ hg => hg.insertCell _ _ h.cursor).tellingOne trivial
  · refine Reaction.InPalette.andThen ?_ fun h => (h.moveTo _ _).tellingCursor
    exact (h.editLive fun _ hg => hg.set _ _ h.cursor).tellingOne trivial

theorem printChar (h : t.InPalette) (char : Char) : (printChar char t).InPalette := by
  simp only [Terminal.printChar]
  exact h.settleWrap.andThen fun h => h.place _

theorem each {α : Type} {f : α → Terminal → Reaction}
    (hf : ∀ a t, Terminal.InPalette t → (f a t).InPalette) (xs : List α) (h : t.InPalette) :
    (each f xs t).InPalette := by
  induction xs generalizing t with
  | nil => exact h.quietly
  | cons a xs ih => exact (hf a t h).andThen ih

theorem print (h : t.InPalette) (text : String) : (t.print text).InPalette :=
  h.each (fun char _ ht => ht.printChar char) text.toList

theorem blankColumns (h : t.InPalette) (first last : Nat) :
    (t.blankColumns first last).InPalette :=
  (h.editLive fun _ hg => hg.blankSpan ..).tellingOne trivial

theorem eraseInLine (h : t.InPalette) (scope : EraseScope) : (t.eraseInLine scope).InPalette := by
  cases scope <;> exact h.blankColumns ..

theorem blankRows (h : t.InPalette) (first stop : Nat) (order : List Nat → List Nat) :
    (t.blankRows first stop order).InPalette :=
  (h.editLive fun _ hg => hg.blankRows ..).telling fun _ => wholeRows_inPalette

theorem eraseInDisplay (h : t.InPalette) (scope : EraseScope) :
    (t.eraseInDisplay scope).InPalette := by
  simp only [Terminal.eraseInDisplay]
  cases scope with
  | toStart => exact (h.eraseInLine .toStart).andThen fun h => h.blankRows ..
  | toEnd => exact (h.eraseInLine .toEnd).andThen fun h => h.blankRows ..
  | whole => exact h.blankRows ..

theorem editRest (h : t.InPalette) {f : Grid → Grid}
    (hf : ∀ g : Grid, g.InPalette → (f g).InPalette) (count : Nat) :
    (t.editLive (Nat.repeat f count)).tellingRest.InPalette :=
  (h.editLive fun _ hg => hg.repeat hf count).tellingOne trivial

theorem editLines (h : t.InPalette) {f : Nat → Nat → Grid → Grid}
    (hf : ∀ (y bottom : Nat) (g : Grid), g.InPalette → (f y bottom g).InPalette) (count : Nat) :
    (t.editLines count f).InPalette := by
  simp only [Terminal.editLines]
  split
  · exact h.quietly
  · exact (h.editLive fun _ hg => hg.repeat (hf _ _) _).telling fun _ => wholeRows_inPalette

theorem setLineSize (h : t.InPalette) (size : LineSize) : (t.setLineSize size).InPalette :=
  (h.editLive fun _ hg => hg.setLineSize ..).telling fun _ => wholeRows_inPalette

theorem alignScreen (h : t.InPalette) : t.alignScreen.InPalette := by
  have hfill := h.editLive fun _ hg => hg.fill 'E'
  have hfull : { t.editLive (·.fill 'E') with margins := Margins.full t.height }.InPalette :=
    { hfill with }
  exact ((hfull.moveTo 0 0).telling fun _ => wholeRows_inPalette).andThen tellingCursor

theorem setWindowTitle (h : t.InPalette) (title : String) :
    (t.setWindowTitle title).InPalette := by
  have htitled : { t with windowTitle := title }.InPalette := { h with }
  exact htitled.tellingOne trivial

theorem setIconTitle (h : t.InPalette) (title : String) : (t.setIconTitle title).InPalette := by
  have htitled : { t with iconTitle := title }.InPalette := { h with }
  exact htitled.tellingOne trivial

theorem changeMode (h : t.InPalette) (change : ModeChange) : (t.changeMode change).InPalette := by
  have hmodes (modes : Modes) : { t with modes }.InPalette := ⟨h.grids, h.cursor, h.saved⟩
  simp only [Terminal.changeMode]
  split
  · refine (hmodes _).telling fun n hn => ?_
    obtain hn | hn := List.mem_append.mp hn
    · exact wholeRows_inPalette hn
    · exact List.mem_singleton.mp hn ▸ trivial
  · split
    · exact (hmodes _).tellingOne trivial
    · exact h.warning _

theorem saveCursor (h : t.InPalette) : t.saveCursor.InPalette := by
  refine quietly { h with saved := ?_ }
  intro c hc
  rw [SavedCursors.push] at hc
  split at hc
  · exact h.saved c hc
  · obtain rfl | hm := List.mem_cons.mp (List.mem_of_mem_take hc)
    · exact h.cursor
    · exact h.saved c hm

theorem restoreCursor (h : t.InPalette) : t.restoreCursor.InPalette := by
  rw [Terminal.restoreCursor, SavedCursors.pop?]
  have hsaved := h.saved
  cases hentries : t.saved.entries with
  | nil => exact h.tellingCursor
  | cons c rest =>
      rw [hentries] at hsaved
      refine tellingCursor { h with cursor := ?_, saved := ?_ }
      · exact hsaved c (List.mem_cons_self ..)
      · exact fun saved hm => hsaved saved (List.mem_cons_of_mem _ hm)

end InPalette

theorem colour_of_digit {n : Nat} (hn : n ≤ 9) : UInt8.ofNat n ≤ 9 := by
  rw [UInt8.le_iff_toNat_le, UInt8.toNat_ofNat_of_lt' (Nat.lt_of_le_of_lt hn (by decide))]
  exact hn

/-- No code leads out of the palette. -/
theorem pen_applyAttribute {c c' : Cursor} {code : Nat} (h : c.pen.InPalette)
    (hc : c.applyAttribute? code = some c') : c'.pen.InPalette := by
  have hreversed (on : Bool) : (c.setReversed on).pen.InPalette := by
    unfold Cursor.setReversed
    split
    · exact h
    · exact ⟨h.2, h.1⟩
  unfold Cursor.applyAttribute? at hc
  split at hc
  all_goals first
    | (cases hc; exact h)
    | (cases hc; exact Pen.plain_inPalette)
    | (cases hc; exact hreversed _)
    | skip
  split at hc
  · cases hc
    exact ⟨colour_of_digit (by omega), h.2⟩
  · split at hc
    · cases hc
      exact ⟨h.1, colour_of_digit (by omega)⟩
    · cases hc

namespace InPalette

theorem applyAttribute (h : t.InPalette) (code : Nat) : (t.applyAttribute code).InPalette := by
  rw [Terminal.applyAttribute]
  split
  · next c hc => exact quietly { h with cursor := pen_applyAttribute h.cursor hc }
  · exact h.warning _

theorem softReset (h : t.InPalette) : t.softReset.InPalette :=
  quietly { h with cursor := Pen.plain_inPalette, saved := nofun }

end InPalette

theorem initial_inPalette (width height depth : Nat) :
    (initial width height depth).InPalette where
  grids kind := by
    cases kind <;> exact Grid.uniform_inPalette _ _ Pen.plain_inPalette
  cursor := Pen.plain_inPalette
  saved := nofun

namespace InPalette

theorem reset (t : Terminal) : t.reset.InPalette :=
  ((initial_inPalette ..).telling fun _ => wholeRows_inPalette).andThen tellingCursor

/-- No command brings in a colour without a digit. -/
theorem obey (h : t.InPalette) (c : Command) : (t.obey c).InPalette := by
  cases c with
  | bell => exact h.tellingOne trivial
  | backspace | tab | gotoColumn _ => exact (h.moveTo _ _).tellingCursor
  | lineFeed | verticalTab | formFeed => exact h.lineFeed
  | carriageReturn => exact h.returnCarriage
  | useSlot _ | designate _ _ => exact quietly { h with }
  | print text => exact h.print text
  | arrow direction count => exact h.arrow direction count
  | home | goto _ _ | gotoRow _ => exact h.goto _ _
  | index => exact h.index
  | reverseIndex => exact h.reverseIndex
  | nextLine => exact h.nextLine
  | saveCursor => exact h.saveCursor
  | restoreCursor => exact h.restoreCursor
  | mode change => exact h.changeMode change
  | origin origin =>
      have ho : { t with modes := { t.modes with origin } }.InPalette := { h with }
      exact ho.goto 0 0
  | singleShift _ _ => exact h.warning _
  | setTab | clearTab | clearAllTabs => exact quietly { h with }
  | lineSize size => exact h.setLineSize size
  | eraseInLine scope => exact h.eraseInLine scope
  | eraseInDisplay scope => exact h.eraseInDisplay scope
  | deleteChars count => exact h.editRest (fun _ hg => hg.deleteCell ..) _
  | insertChars count => exact h.editRest (fun _ hg => hg.insertCell _ _ Pen.plain_inPalette) _
  | eraseChars count => exact h.blankColumns ..
  | insertLines count | deleteLines count =>
      exact h.editLines (fun _ _ _ hg => hg.cycleRows ..) count
  | scrollUp count => exact h.scrollUp count
  | scrollDown count => exact h.scrollDown count
  | report _ => exact h.tellingOne trivial
  | ledsOff | led _ => exact quietly { h with }
  | windowTitle title => exact h.setWindowTitle title
  | iconTitle title => exact h.setIconTitle title
  | bothTitles title =>
      exact Reaction.InPalette.andThen (f := (·.setIconTitle title)) (h.setWindowTitle title)
        fun h => h.setIconTitle title
  | margins top bottom =>
      have hm : { t with margins := marginsFor t.height top bottom }.InPalette := { h with }
      exact hm.goto 0 0
  | resetMargins =>
      have hm : { t with margins := marginsFor t.height none none }.InPalette := { h with }
      exact hm.goto 0 0
  | softReset => exact h.softReset
  | reset => exact reset t
  | «attribute» code => exact h.applyAttribute code
  | selfTest _ => exact h.quietly
  | screenAlignment => exact h.alignScreen

/-- Whatever is obeyed, the palette is not left, and every row that is told shows its colours. -/
theorem obeyAll (h : t.InPalette) (commands : List Command) : (obeyAll commands t).InPalette :=
  h.each (fun c _ ht => ht.obey c) commands

end InPalette

end Terminal

end TermReplay

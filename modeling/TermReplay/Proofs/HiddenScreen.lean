import TermReplay.Proofs.CommandReports

/-!
What most commands know nothing of: the grid that is not on display, and the saved cursors. That
they are not looked at and not touched is one law: with another grid and other saved cursors in
their place, a command does the same to the rest and tells the same.
-/

namespace TermReplay

namespace Terminal

def hidden (t : Terminal) : Grid :=
  match t.modes.screen with
  | .primary => t.alternate
  | .alternate => t.primary

def withUnseen (t : Terminal) (hidden : Grid) (saved : SavedCursors) : Terminal :=
  { t with
    primary := if t.modes.screen = .primary then t.primary else hidden
    alternate := if t.modes.screen = .primary then hidden else t.alternate
    saved }

end Terminal

def Reaction.withUnseen (r : Reaction) (hidden : Grid) (saved : SavedCursors) : Reaction :=
  ⟨r.terminal.withUnseen hidden saved, r.notices⟩

namespace Terminal

/-- What is unseen makes no difference, and the screen on display is not switched. -/
def Unaware (f : Terminal → Reaction) : Prop :=
  ∀ (t : Terminal) (hidden : Grid) (saved : SavedCursors),
    f (t.withUnseen hidden saved) = (f t).withUnseen hidden saved ∧
      (f t).terminal.modes.screen = t.modes.screen

section WithUnseen

variable (t : Terminal) (hidden : Grid) (saved : SavedCursors)

theorem withUnseen_self : t.withUnseen t.hidden t.saved = t := by
  unfold withUnseen Terminal.hidden
  cases t.modes.screen <;> rfl

theorem hidden_withUnseen : (t.withUnseen hidden saved).hidden = hidden := by
  unfold withUnseen Terminal.hidden
  cases t.modes.screen <;> rfl

theorem live_withUnseen : (t.withUnseen hidden saved).live = t.live := by
  unfold withUnseen live grid
  cases t.modes.screen <;> rfl

theorem editLive_withUnseen (f : Grid → Grid) :
    (t.withUnseen hidden saved).editLive f = (t.editLive f).withUnseen hidden saved := by
  unfold withUnseen editLive
  cases hs : t.modes.screen <;> simp [hs]

end WithUnseen

namespace Unaware

variable {f g : Terminal → Reaction}

theorem andThen (hf : Unaware f) (hg : Unaware g) : Unaware fun t => (f t).andThen g := by
  intro t hidden saved
  obtain ⟨hft, hfscreen⟩ := hf t hidden saved
  obtain ⟨hgt, hgscreen⟩ := hg (f t).terminal hidden saved
  refine ⟨?_, hgscreen.trans hfscreen⟩
  show (f (t.withUnseen hidden saved)).andThen g = _
  rw [hft]
  exact Reaction.ext_parts (congrArg Reaction.terminal hgt :)
    (congrArg (fun r => (f t).notices ++ Reaction.notices r) hgt :)

/-- Of two reactions, the one that what is seen decides on. -/
theorem ite {p : Terminal → Prop} [DecidablePred p]
    (hp : ∀ t hidden saved, p (t.withUnseen hidden saved) ↔ p t) (hf : Unaware f)
    (hg : Unaware g) : Unaware fun t => if p t then f t else g t := by
  intro t hidden saved
  simp only [hp]
  split
  · exact hf t hidden saved
  · exact hg t hidden saved

theorem each {α : Type} {f : α → Terminal → Reaction} (hf : ∀ a, Unaware (f a))
    (xs : List α) : Unaware (Terminal.each f xs) := by
  induction xs with
  | nil => exact fun _ _ _ => ⟨rfl, rfl⟩
  | cons x xs ih => exact (hf x).andThen ih

/-- Edits of the grid on display, with notices that are known beforehand. -/
theorem edit (f : Grid → Grid) (notices : List Notice) :
    Unaware fun t => (t.editLive f).telling notices :=
  fun t hidden saved =>
    ⟨congrArg (·.telling notices) (editLive_withUnseen t hidden saved f),
      congrArg Modes.screen (editLive_modes t f)⟩

theorem hidden (hf : Unaware f) (t : Terminal) : (f t).terminal.hidden = t.hidden := by
  have h := (hf t t.hidden t.saved).1
  rw [withUnseen_self] at h
  rw [h]
  exact hidden_withUnseen ..

theorem saved (hf : Unaware f) (t : Terminal) : (f t).terminal.saved = t.saved := by
  have h := (hf t t.hidden t.saved).1
  rw [withUnseen_self] at h
  rw [h]
  rfl

end Unaware

theorem cycleRows_unaware (remove insert : Nat) (direction : Int) (count : Nat) :
    Unaware (cycleRows remove insert direction count) := by
  induction count with
  | zero => exact fun _ _ _ => ⟨rfl, rfl⟩
  | succ count ih =>
      have hstep : Unaware fun t => (t.editLive (·.cycleRows remove insert)).telling
          [.scrolled (t.live.rowImage remove) direction] := by
        intro t hidden saved
        dsimp only
        rw [live_withUnseen]
        exact Unaware.edit (·.cycleRows remove insert) _ t hidden saved
      exact hstep.andThen ih

theorem scrolling_unaware (remove insert : Nat) (direction : Int) (count : Nat) :
    Unaware fun t => (cycleRows remove insert direction count t).andThen tellingRegion :=
  (cycleRows_unaware remove insert direction count : Unaware _).andThen fun _ _ _ => ⟨rfl, rfl⟩

theorem scrollUp_unaware (count : Nat) : Unaware (·.scrollUp count) :=
  .ite (fun _ _ _ => Iff.rfl) (fun _ _ _ => ⟨rfl, rfl⟩)
    fun t => scrolling_unaware t.margins.top t.margins.bottom 1 (min count t.regionHeight) t

theorem scrollDown_unaware (count : Nat) : Unaware (·.scrollDown count) :=
  .ite (fun _ _ _ => Iff.rfl) (fun _ _ _ => ⟨rfl, rfl⟩)
    fun t => scrolling_unaware t.margins.bottom t.margins.top (-1) (min count t.regionHeight) t

theorem advanceLine_unaware : Unaware advanceLine := by
  have hdown : Unaware fun t =>
      if t.cursor.y = t.margins.bottom then t.scrollUp 1
      else (t.moveTo t.cursor.x (t.cursor.y + 1)).quietly :=
    .ite (fun _ _ _ => Iff.rfl) (scrollUp_unaware 1) fun _ _ _ => ⟨rfl, rfl⟩
  rw [funext advanceLine_eq]
  exact hdown.andThen fun _ _ _ => ⟨rfl, rfl⟩

theorem index_unaware : Unaware index :=
  .ite (fun _ _ _ => Iff.rfl) (scrollUp_unaware 1)
    (.ite (fun _ _ _ => Iff.rfl) (fun _ _ _ => ⟨rfl, rfl⟩) fun _ _ _ => ⟨rfl, rfl⟩)

theorem reverseIndex_unaware : Unaware reverseIndex :=
  .ite (fun _ _ _ => Iff.rfl) (scrollDown_unaware 1)
    (.ite (fun _ _ _ => Iff.rfl) (fun _ _ _ => ⟨rfl, rfl⟩) fun _ _ _ => ⟨rfl, rfl⟩)

theorem lineFeed_unaware : Unaware lineFeed := by
  refine advanceLine_unaware.andThen fun t hidden saved => ?_
  have hmodes : (t.withUnseen hidden saved).modes = t.modes := rfl
  rw [hmodes]
  cases t.modes.newLine <;> exact ⟨rfl, rfl⟩

theorem nextLine_unaware : Unaware nextLine :=
  index_unaware.andThen fun _ _ _ => ⟨rfl, rfl⟩

theorem settleWrap_unaware : Unaware settleWrap :=
  .ite (fun _ _ _ => Iff.rfl)
    (.ite (fun _ _ _ => Iff.rfl)
      (fun t => advanceLine_unaware (t.moveTo 0 t.cursor.y)) fun _ _ _ => ⟨rfl, rfl⟩)
    fun _ _ _ => ⟨rfl, rfl⟩

theorem place_unaware (char : Char) : Unaware (·.place char) := by
  have hedit : ∀ (f : Grid → Grid) (notices : List Notice) (x y : Nat), Unaware fun t =>
      ((t.editLive f).telling notices).andThen fun t => (t.moveTo x y).tellingCursor :=
    fun f notices _ _ => (Unaware.edit f notices).andThen fun _ _ _ => ⟨rfl, rfl⟩
  refine .ite (fun _ _ _ => Iff.rfl) (fun t => ?_) fun t => ?_
  · exact hedit (·.insertCell t.cursor.x t.cursor.y { char, pen := t.cursor.pen })
      [.change t.cursor.y t.cursor.x t.lastColumn] (t.cursor.x + 1) t.cursor.y t
  · exact hedit (·.set t.cursor.x t.cursor.y { char, pen := t.cursor.pen })
      [.change t.cursor.y t.cursor.x t.cursor.x] (t.cursor.x + 1) t.cursor.y t

theorem printChar_unaware (char : Char) : Unaware (printChar char) :=
  fun t => settleWrap_unaware.andThen (place_unaware (t.designations.translate char)) t

theorem print_unaware (text : String) : Unaware (·.print text) :=
  Unaware.each printChar_unaware text.toList

theorem blankColumns_unaware (first last : Nat) : Unaware (·.blankColumns first last) :=
  fun t => Unaware.edit (·.blankSpan t.cursor.y first last) [.change t.cursor.y first last] t

theorem eraseInLine_unaware (scope : EraseScope) : Unaware (·.eraseInLine scope) := by
  cases scope with
  | toStart => exact fun t => blankColumns_unaware 0 t.column t
  | toEnd => exact fun t => blankColumns_unaware t.column t.lastColumn t
  | whole => exact fun t => blankColumns_unaware 0 t.lastColumn t

theorem blankRows_unaware (first stop : Nat) (order : List Nat → List Nat) :
    Unaware (·.blankRows first stop order) :=
  fun t => Unaware.edit (·.blankRows first stop) (t.wholeRows (order (rowsUpTo first stop))) t

theorem eraseInDisplay_unaware (scope : EraseScope) : Unaware (·.eraseInDisplay scope) := by
  cases scope with
  | toStart =>
      exact fun t => (eraseInLine_unaware .toStart : Unaware _).andThen
        (blankRows_unaware 0 t.cursor.y List.reverse : Unaware _) t
  | toEnd =>
      have hbelow : ∀ first : Nat, Unaware fun t => t.blankRows first t.height id :=
        fun first t => blankRows_unaware first t.height id t
      exact fun t => (eraseInLine_unaware .toEnd).andThen (hbelow (t.cursor.y + 1)) t
  | whole => exact fun t => blankRows_unaware 0 t.height id t

/-- Edits that tell of the rest of the cursor row. -/
theorem editRest_unaware (f : Grid → Grid) : Unaware fun t => (t.editLive f).tellingRest :=
  have hrest : Unaware tellingRest := fun _ _ _ => ⟨rfl, rfl⟩
  (Unaware.edit f []).andThen hrest

theorem deleteChars_unaware (count : Nat) : Unaware (·.deleteChars count) :=
  fun t => editRest_unaware
    (Nat.repeat (·.deleteCell t.column t.cursor.y) (min count (t.width - t.column))) t

theorem insertChars_unaware (count : Nat) : Unaware (·.insertChars count) :=
  fun t => editRest_unaware
    (Nat.repeat (·.insertCell t.column t.cursor.y .blank) (min count (t.width - t.column))) t

theorem eraseChars_unaware (count : Nat) : Unaware (·.eraseChars count) :=
  fun t => blankColumns_unaware t.column (min (t.column + max count 1 - 1) t.lastColumn) t

theorem editLines_unaware (count : Nat) (f : Nat → Nat → Grid → Grid) :
    Unaware (·.editLines count f) :=
  .ite (fun _ _ _ => Iff.rfl) (fun _ _ _ => ⟨rfl, rfl⟩) fun t =>
    Unaware.edit (Nat.repeat (f t.cursor.y t.margins.bottom)
      (min count (t.margins.bottom - t.cursor.y + 1)))
      (t.wholeRows (rowsUpTo t.cursor.y (t.margins.bottom + 1))) t

theorem setLineSize_unaware (size : LineSize) : Unaware (·.setLineSize size) :=
  fun t => Unaware.edit (·.setLineSize t.cursor.y size) (t.wholeRows [t.cursor.y]) t

theorem alignScreen_unaware : Unaware alignScreen := by
  have hopen : ∀ height : Nat, Unaware fun t =>
      let t := { t with margins := Margins.full height }.moveTo 0 0
      (t.telling (t.wholeRows (rowsUpTo 0 t.height))).andThen tellingCursor :=
    fun _ _ _ _ => ⟨rfl, rfl⟩
  exact fun t => (Unaware.edit (·.fill 'E') []).andThen (hopen t.height) t

theorem changeMode_of_some {t : Terminal} {change : ModeChange} {modes : Modes}
    (h : t.modes.store? change = some modes) :
    t.changeMode change = { t with modes }.telling [.mode change] := by
  cases change with
  | screen kind => cases h
  | _ => simp only [changeMode, h]

theorem changeMode_of_none {t : Terminal} {change : ModeChange}
    (hc : ∀ kind, change ≠ .screen kind) (h : t.modes.store? change = none) :
    t.changeMode change =
      t.warning ("can't handle mode change " ++ unsupportedMode change) := by
  cases change with
  | screen kind => exact absurd rfl (hc kind)
  | _ => simp only [changeMode, h]

theorem changeMode_unaware {change : ModeChange} (hc : ∀ kind, change ≠ .screen kind) :
    Unaware (·.changeMode change) := by
  intro t hidden saved
  have hmodes : (t.withUnseen hidden saved).modes = t.modes := rfl
  cases hm : t.modes.store? change with
  | none =>
      dsimp only
      rw [changeMode_of_none hc hm, changeMode_of_none hc (hmodes ▸ hm)]
      exact ⟨rfl, rfl⟩
  | some modes =>
      have hscreen := Modes.screen_of_store? hm
      dsimp only
      rw [changeMode_of_some hm, changeMode_of_some (hmodes ▸ hm)]
      refine ⟨?_, hscreen⟩
      simp only [withUnseen, Reaction.withUnseen, telling, hscreen]

theorem applyAttribute_unaware (code : Nat) : Unaware (·.applyAttribute code) := by
  intro t hidden saved
  have hcursor : (t.withUnseen hidden saved).cursor = t.cursor := rfl
  simp only [applyAttribute]
  rw [hcursor]
  cases t.cursor.applyAttribute? code <;> exact ⟨rfl, rfl⟩

end Terminal

/-- Commands that have to do with saved cursors, switch the screen or reset it are left out. -/
structure Command.KeepsUnseen (c : Command) : Prop where
  save : c ≠ .saveCursor
  restore : c ≠ .restoreCursor
  softReset : c ≠ .softReset
  reset : c ≠ .reset
  switch : ∀ kind, c ≠ .mode (.screen kind)

theorem Command.keepsUnseen_cases (c : Command) :
    c = .saveCursor ∨ c = .restoreCursor ∨ c = .softReset ∨ c = .reset ∨
      (∃ kind, c = .mode (.screen kind)) ∨ c.KeepsUnseen := by
  by_cases hsave : c = .saveCursor
  · exact .inl hsave
  by_cases hrestore : c = .restoreCursor
  · exact .inr (.inl hrestore)
  by_cases hsoft : c = .softReset
  · exact .inr (.inr (.inl hsoft))
  by_cases hreset : c = .reset
  · exact .inr (.inr (.inr (.inl hreset)))
  by_cases hswitch : ∃ kind, c = .mode (.screen kind)
  · exact .inr (.inr (.inr (.inr (.inl hswitch))))
  exact .inr (.inr (.inr (.inr (.inr
    ⟨hsave, hrestore, hsoft, hreset, fun kind hk => hswitch ⟨kind, hk⟩⟩))))

namespace Terminal

theorem obey_unaware {c : Command} (hc : c.KeepsUnseen) : Unaware (·.obey c) := by
  cases c with
  | saveCursor => exact absurd rfl hc.save
  | restoreCursor => exact absurd rfl hc.restore
  | softReset => exact absurd rfl hc.softReset
  | reset => exact absurd rfl hc.reset
  | bell | backspace | tab | carriageReturn => exact fun _ _ _ => ⟨rfl, rfl⟩
  | useSlot _ | designate _ _ | singleShift _ _ => exact fun _ _ _ => ⟨rfl, rfl⟩
  | home | goto _ _ | gotoColumn _ | gotoRow _ | origin _ => exact fun _ _ _ => ⟨rfl, rfl⟩
  | setTab | clearTab | clearAllTabs => exact fun _ _ _ => ⟨rfl, rfl⟩
  | report _ | ledsOff | led _ | selfTest _ => exact fun _ _ _ => ⟨rfl, rfl⟩
  | windowTitle _ | iconTitle _ | bothTitles _ => exact fun _ _ _ => ⟨rfl, rfl⟩
  | margins _ _ | resetMargins => exact fun _ _ _ => ⟨rfl, rfl⟩
  | arrow direction _ => cases direction <;> exact fun _ _ _ => ⟨rfl, rfl⟩
  | lineFeed | verticalTab | formFeed => exact lineFeed_unaware
  | index => exact index_unaware
  | reverseIndex => exact reverseIndex_unaware
  | nextLine => exact nextLine_unaware
  | print text => exact print_unaware text
  | mode change => exact changeMode_unaware fun kind hk => hc.switch kind (congrArg _ hk)
  | lineSize size => exact setLineSize_unaware size
  | eraseInLine scope => exact eraseInLine_unaware scope
  | eraseInDisplay scope => exact eraseInDisplay_unaware scope
  | deleteChars count => exact deleteChars_unaware count
  | insertChars count => exact insertChars_unaware count
  | eraseChars count => exact eraseChars_unaware count
  | insertLines count => exact editLines_unaware count fun y bottom g => g.cycleRows bottom y
  | deleteLines count => exact editLines_unaware count fun y bottom g => g.cycleRows y bottom
  | scrollUp count => exact scrollUp_unaware count
  | scrollDown count => exact scrollDown_unaware count
  | «attribute» code => exact applyAttribute_unaware code
  | screenAlignment => exact alignScreen_unaware

end Terminal

end TermReplay

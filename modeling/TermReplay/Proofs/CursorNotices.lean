import TermReplay.Proofs.Preservation
import TermReplay.Watch.Log

/-!
Every command that moves the cursor tells of it: a watcher who goes by the notices alone, and knew
where the cursor was before, knows where it is after. Some steps move it silently, but only in
front of one that tells of it. What is told lies on the grid, or one past the end of a row of it.
-/

namespace TermReplay

namespace Notice

theorem lastCursor?_append (xs ys : List Notice) :
    lastCursor? (xs ++ ys) = (lastCursor? ys).or (lastCursor? xs) := by
  rw [lastCursor?, List.reverse_append, List.findSome?_append]
  rfl

theorem lastCursor?_eq_none_iff {log : List Notice} :
    lastCursor? log = none ↔ ∀ x y, Notice.cursor x y ∉ log := by
  rw [lastCursor?, List.findSome?_eq_none_iff]
  constructor
  · intro h x y hm
    cases h _ (List.mem_reverse.mpr hm)
  · intro h n hn
    cases n with
    | cursor x y => exact absurd (List.mem_reverse.mp hn) (h x y)
    | _ => rfl

/-- Where the cursor is for a watcher who took it to be at `before`. -/
def cursorAfter (before : Nat × Nat) (log : List Notice) : Nat × Nat :=
  (lastCursor? log).getD before

theorem cursorAfter_append (before : Nat × Nat) (xs ys : List Notice) :
    cursorAfter before (xs ++ ys) = cursorAfter (cursorAfter before xs) ys := by
  rw [cursorAfter, cursorAfter, cursorAfter, lastCursor?_append]
  cases lastCursor? ys <;> rfl

end Notice

open Notice (lastCursor?)

/-- Where the cursor is, one past the last column while a wrap is pending. -/
def Terminal.position (t : Terminal) : Nat × Nat := (t.cursor.x, t.cursor.y)

/-- The notices lead a watcher from `before` to where the cursor is, and over no place that is
not of a grid of the given size. -/
structure Reaction.TellsCursor (r : Reaction) (before : Nat × Nat) (width height : Nat) :
    Prop where
  last : Notice.cursorAfter before r.notices = r.terminal.position
  inside : ∀ x y, Notice.cursor x y ∈ r.notices → x ≤ width ∧ y < height

namespace Reaction.TellsCursor

variable {r : Reaction} {before : Nat × Nat} {width height : Nat}

/-- The cursor is not moved and not told of. -/
theorem still (hp : r.terminal.position = before) (hn : lastCursor? r.notices = none) :
    r.TellsCursor before width height where
  last := by
    rw [Notice.cursorAfter, hn, hp]
    rfl
  inside x y hm := absurd hm (Notice.lastCursor?_eq_none_iff.mp hn x y)

/-- Whatever became of the cursor, it is told of at the end. -/
theorem told (h : r.terminal.Fits width height) (quiet : List Notice)
    (hq : lastCursor? quiet = none)
    (hn : r.notices = quiet ++ [.cursor r.terminal.cursor.x r.terminal.cursor.y]) :
    r.TellsCursor before width height where
  last := by
    rw [hn, Notice.cursorAfter, Notice.lastCursor?_append]
    rfl
  inside := by
    intro x y hm
    rw [hn] at hm
    obtain hm | hm := List.mem_append.mp hm
    · exact absurd hm (Notice.lastCursor?_eq_none_iff.mp hq x y)
    · cases List.mem_singleton.mp hm
      exact h.cursor

theorem andThen {f : Terminal → Reaction} (hr : r.TellsCursor before width height)
    (hf : (f r.terminal).TellsCursor r.terminal.position width height) :
    (r.andThen f).TellsCursor before width height where
  last := by
    rw [andThen_notices, Notice.cursorAfter_append, hr.last, hf.last, andThen_terminal]
  inside := by
    intro x y hm
    obtain hm | hm := List.mem_append.mp hm
    · exact hr.inside x y hm
    · exact hf.inside x y hm

end Reaction.TellsCursor

open Reaction (TellsCursor)

namespace Terminal

variable {t : Terminal} {width height : Nat}

theorem position_editLive (t : Terminal) (f : Grid → Grid) :
    (t.editLive f).position = t.position := by
  rw [position, editLive_cursor, position]

theorem lastCursor?_wholeRows (t : Terminal) (rows : List Nat) :
    lastCursor? (t.wholeRows rows) = none := by
  rw [Notice.lastCursor?_eq_none_iff]
  intro x y hm
  obtain ⟨_, -, h⟩ := List.mem_map.mp hm
  cases h

theorem lastCursor?_cycleRows (remove insert : Nat) (direction : Int) (count : Nat)
    (t : Terminal) : lastCursor? (cycleRows remove insert direction count t).notices = none := by
  induction count generalizing t with
  | zero => rfl
  | succ count ih =>
      rw [cycleRows, Reaction.andThen_notices, Notice.lastCursor?_append, ih]
      rfl

/-- Scrolling by some rows, up or down. -/
theorem lastCursor?_scrolling (remove insert : Nat) (direction : Int) (count : Nat)
    (t : Terminal) :
    lastCursor? ((cycleRows remove insert direction count t).andThen tellingRegion).notices =
      none := by
  rw [Reaction.andThen_notices, Notice.lastCursor?_append, lastCursor?_cycleRows]
  simp only [tellingRegion, telling_notices, lastCursor?_wholeRows, Option.or_none]

theorem scrolling_tellsCursor (remove insert : Nat) (direction : Int) (count : Nat)
    (t : Terminal) :
    ((cycleRows remove insert direction count t).andThen tellingRegion).TellsCursor t.position
      width height := by
  refine .still ?_ (lastCursor?_scrolling ..)
  rw [Reaction.andThen_terminal, tellingRegion, telling_terminal, cycleRows_terminal,
    position_editLive]

theorem scrollUp_tellsCursor (t : Terminal) (count : Nat) :
    (t.scrollUp count).TellsCursor t.position width height := by
  rw [scrollUp]
  split
  · exact .still rfl rfl
  · exact scrolling_tellsCursor ..

theorem scrollDown_tellsCursor (t : Terminal) (count : Nat) :
    (t.scrollDown count).TellsCursor t.position width height := by
  rw [scrollDown]
  split
  · exact .still rfl rfl
  · exact scrolling_tellsCursor ..

theorem edit_tellsCursor (t : Terminal) (f : Grid → Grid) {notices : List Notice}
    (hn : lastCursor? notices = none) :
    ((t.editLive f).telling notices).TellsCursor t.position width height :=
  .still (position_editLive t f) hn

theorem eraseInLine_tellsCursor (t : Terminal) (scope : EraseScope) :
    (t.eraseInLine scope).TellsCursor t.position width height := by
  cases scope <;> exact t.edit_tellsCursor _ rfl

theorem blankRows_tellsCursor (t : Terminal) (first stop : Nat) (order : List Nat → List Nat) :
    (t.blankRows first stop order).TellsCursor t.position width height :=
  t.edit_tellsCursor _ (lastCursor?_wholeRows ..)

theorem eraseInDisplay_tellsCursor (t : Terminal) (scope : EraseScope) :
    (t.eraseInDisplay scope).TellsCursor t.position width height := by
  simp only [eraseInDisplay]
  cases scope with
  | toStart => exact .andThen (t.eraseInLine_tellsCursor .toStart) (blankRows_tellsCursor ..)
  | toEnd => exact .andThen (t.eraseInLine_tellsCursor .toEnd) (blankRows_tellsCursor ..)
  | whole => exact blankRows_tellsCursor ..

theorem editLines_tellsCursor (t : Terminal) (count : Nat) (f : Nat → Nat → Grid → Grid) :
    (t.editLines count f).TellsCursor t.position width height := by
  simp only [editLines]
  split
  · exact .still rfl rfl
  · exact t.edit_tellsCursor _ (lastCursor?_wholeRows ..)

theorem changeMode_tellsCursor (t : Terminal) (change : ModeChange) :
    (t.changeMode change).TellsCursor t.position width height := by
  simp only [changeMode]
  split
  · refine .still rfl ?_
    rw [telling_notices, Notice.lastCursor?_append, lastCursor?_wholeRows]
    rfl
  · split <;> exact .still rfl rfl

theorem applyAttribute_tellsCursor (t : Terminal) (code : Nat) :
    (t.applyAttribute code).TellsCursor t.position width height := by
  rw [applyAttribute]
  split
  · next c hc =>
      obtain ⟨hx, hy⟩ := applyAttribute_position hc
      exact .still (Prod.ext hx hy) rfl
  · exact .still rfl rfl

theorem lastCursor?_advanceLine (t : Terminal) : lastCursor? t.advanceLine.notices = none := by
  have hlimit : lastCursor? (Reaction.notices t.limitRow.quietly) = none := rfl
  rw [advanceLine_eq, Reaction.andThen_notices]
  split
  · rw [scrollUp, if_neg Nat.one_ne_zero, quietly, List.append_nil]
    exact lastCursor?_scrolling ..
  · rfl

theorem lastCursor?_settleWrap (t : Terminal) : lastCursor? t.settleWrap.notices = none := by
  rw [settleWrap]
  split
  · split
    · exact lastCursor?_advanceLine _
    · rfl
  · rfl

theorem place_notices (t : Terminal) (char : Char) :
    ∃ row first last, (t.place char).notices = [.change row first last,
      .cursor (t.place char).terminal.cursor.x (t.place char).terminal.cursor.y] := by
  rw [place]
  split <;> exact ⟨_, _, _, rfl⟩

namespace Fits

theorem lineFeed_tellsCursor (h : t.Fits width height) :
    t.lineFeed.TellsCursor t.position width height := by
  refine .told h.lineFeed t.advanceLine.notices (lastCursor?_advanceLine t) ?_
  simp only [Terminal.lineFeed, Reaction.andThen_notices, Reaction.andThen_terminal]
  split <;> rfl

theorem index_tellsCursor (h : t.Fits width height) :
    t.index.TellsCursor t.position width height := by
  rw [Terminal.index]
  split
  · exact scrollUp_tellsCursor t 1
  · split
    · next hbelow => exact .told (h.moveTo h.cursor.1 (h.height_eq ▸ hbelow)) [] rfl rfl
    · exact .still rfl rfl

theorem reverseIndex_tellsCursor (h : t.Fits width height) :
    t.reverseIndex.TellsCursor t.position width height := by
  have habove : t.cursor.y - 1 < height := Nat.lt_of_le_of_lt (Nat.sub_le ..) h.cursor.2
  rw [Terminal.reverseIndex]
  split
  · exact scrollDown_tellsCursor t 1
  · split
    · exact .told (h.moveTo h.cursor.1 habove) [] rfl rfl
    · exact .still rfl rfl

theorem nextLine_tellsCursor (h : t.Fits width height) :
    t.nextLine.TellsCursor t.position width height :=
  h.index_tellsCursor.andThen (.told h.index.returnCarriage [] rfl rfl)

theorem printChar_tellsCursor (h : t.Fits width height) (char : Char) :
    (Terminal.printChar char t).TellsCursor t.position width height := by
  obtain ⟨row, first, last, hplace⟩ :=
    place_notices t.settleWrap.terminal (t.designations.translate char)
  refine .told (h.printChar char) (t.settleWrap.notices ++ [.change row first last]) ?_ ?_
  · rw [Notice.lastCursor?_append, lastCursor?_settleWrap]
    rfl
  · rw [List.append_assoc]
    exact congrArg (t.settleWrap.notices ++ ·) hplace

theorem print_tellsCursor (h : t.Fits width height) (text : String) :
    (t.print text).TellsCursor t.position width height := by
  suffices hs : ∀ (chars : List Char) {t : Terminal}, t.Fits width height →
      (each Terminal.printChar chars t).TellsCursor t.position width height from hs text.toList h
  intro chars
  induction chars with
  | nil => exact fun _ => .still rfl rfl
  | cons char chars ih =>
      exact fun h => (h.printChar_tellsCursor char).andThen (ih (h.printChar char))

theorem restoreCursor_tellsCursor (h : t.Fits width height) :
    t.restoreCursor.TellsCursor t.position width height := by
  refine .told h.restoreCursor [] rfl ?_
  rw [Terminal.restoreCursor]
  split <;> rfl

/-- The position of the state that is taken over, whatever it was before. -/
theorem replaceWith_tellsCursor (h : t.Fits width height) (replaced : Terminal)
    (before : Nat × Nat) : (replaced.replaceWith t).TellsCursor before width height :=
  Reaction.TellsCursor.andThen (r := t.tellingCursor) (.told h [] rfl rfl) (.still rfl rfl)

/-- Whatever the command, its notices tell where it leaves the cursor. -/
theorem obey_tellsCursor (h : t.Fits width height) (c : Command) :
    (t.obey c).TellsCursor t.position width height := by
  have hafter := h.obey c
  cases c with
  | bell | singleShift _ _ | report _ | selfTest _ => exact .still rfl rfl
  | useSlot _ | designate _ _ | saveCursor => exact .still rfl rfl
  | setTab | clearTab | clearAllTabs => exact .still rfl rfl
  | ledsOff | led _ | softReset => exact .still rfl rfl
  | windowTitle _ | iconTitle _ | bothTitles _ => exact .still rfl rfl
  | backspace | tab | carriageReturn | gotoColumn _ => exact .told hafter [] rfl rfl
  | home | goto _ _ | gotoRow _ => exact .told hafter [] rfl rfl
  | origin _ | margins _ _ | resetMargins => exact .told hafter [] rfl rfl
  | arrow direction _ => cases direction <;> exact .told hafter [] rfl rfl
  | lineFeed | verticalTab | formFeed => exact h.lineFeed_tellsCursor
  | index => exact h.index_tellsCursor
  | reverseIndex => exact h.reverseIndex_tellsCursor
  | nextLine => exact h.nextLine_tellsCursor
  | print text => exact h.print_tellsCursor text
  | restoreCursor => exact h.restoreCursor_tellsCursor
  | mode change => exact changeMode_tellsCursor t change
  | «attribute» code => exact applyAttribute_tellsCursor t code
  | lineSize _ => exact t.edit_tellsCursor _ (lastCursor?_wholeRows ..)
  | eraseInLine scope => exact t.eraseInLine_tellsCursor scope
  | eraseInDisplay scope => exact eraseInDisplay_tellsCursor t scope
  | eraseChars _ => exact t.edit_tellsCursor _ rfl
  | deleteChars _ | insertChars _ => exact t.edit_tellsCursor _ rfl
  | insertLines count => exact editLines_tellsCursor t count fun y bottom g => g.cycleRows bottom y
  | deleteLines count => exact editLines_tellsCursor t count fun y bottom g => g.cycleRows y bottom
  | scrollUp count => exact scrollUp_tellsCursor t count
  | scrollDown count => exact scrollDown_tellsCursor t count
  | reset => exact .told hafter _ (lastCursor?_wholeRows _ _) rfl
  | screenAlignment => exact .told hafter _ (lastCursor?_wholeRows _ _) rfl

end Fits

end Terminal

end TermReplay

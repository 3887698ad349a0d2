import TermReplay.Proofs.CheckedEditing

/-!
Commands as machine steps. On a terminal whose parts fit together every command goes through,
and comes to the reaction without checks: no handler leaves an array or goes below zero.
-/

namespace TermReplay

/-- Saves a cursor; the range of the oldest ones is dropped first if there is no room. -/
def SavedCursors.push? (s : SavedCursors) (c : Cursor) : Option SavedCursors :=
  if s.depth = 0 then some s
  else if s.depth ≤ s.entries.length then do
    let excess ← minus? (s.entries.length + 1) s.depth
    let kept ← minus? s.entries.length excess
    some { s with entries := c :: s.entries.take kept }
  else some { s with entries := c :: s.entries }

def Leds.light? (leds : Leds) (number : Nat) : Option Leds :=
  if 1 ≤ number ∧ number ≤ 4 then do
    let lamps ← Plane.write? #[leds.led1, leds.led2, leds.led3, leds.led4] (← minus? number 1) true
    some ⟨← lamps[0]?, ← lamps[1]?, ← lamps[2]?, ← lamps[3]?⟩
  else some leds

namespace Terminal

def fullMargins? (t : Terminal) : Option Margins := do some ⟨0, ← t.lastRow?⟩

def alignScreen? (t : Terminal) : Option Reaction := do
  let filled ← t.editLive? (·.fill? 'E')
  let margins ← t.fullMargins?
  let t := { filled with margins }.moveTo 0 0
  (← t.tellingRows? (rowsUpTo 0 t.height)).andThen? fun t => some t.tellingCursor

def setTab? (t : Terminal) (on : Bool) : Option Reaction := do
  some { t with tabs := ← Plane.write? t.tabs (← t.column?) on }.quietly

def changeMode? (t : Terminal) (change : ModeChange) : Option Reaction :=
  match change with
  | .screen kind =>
    let t := { t with modes := { t.modes with screen := kind } }
    do (← t.tellingRows? (rowsUpTo 0 t.height)).andThen? fun t => some (t.telling [.mode change])
  | _ => some (t.changeMode change)

def reportText? (t : Terminal) (kind : ReportKind) : Option String :=
  match kind with
  | .cursorPosition => do
    let column ← t.column?
    some ("\x1b[" ++ toString (t.cursor.y - t.originRow + 1) ++ ";" ++ toString (column + 1) ++ "R")
  | _ => some (t.reportText kind)

def softReset? (t : Terminal) : Option Reaction := do
  let margins ← t.fullMargins?
  some
    { t with
      modes := { screen := t.modes.screen }
      margins
      cursor := t.cursor.plain
      designations := {}
      saved := t.saved.clear }.quietly

def reset? (t : Terminal) : Option Reaction := do
  let margins ← t.fullMargins?
  let t := { initial t.width t.height t.saved.depth with margins }
  (← t.tellingRows? (rowsUpTo 0 t.height)).andThen? fun t => some t.tellingCursor

/-- Commands that are not listed by themselves read and write no array and subtract nothing. -/
def obey? (t : Terminal) : Command → Option Reaction
  | .tab => do some (t.moveTo (← t.nextStop?) t.cursor.y).tellingCursor
  | .lineFeed | .verticalTab | .formFeed => t.lineFeed?
  | .print text => t.print? text
  | .arrow direction count => t.arrow? direction count
  | .home => t.goto? 0 0
  | .goto row col => t.goto? (col - 1) (row - 1)
  | .gotoColumn col => do
    some (t.moveTo (min (col - 1) (← t.lastColumn?)) t.cursor.y).tellingCursor
  | .gotoRow row => do t.goto? (← t.column?) (row - 1)
  | .index => t.index?
  | .reverseIndex => t.reverseIndex?
  | .nextLine => t.nextLine?
  | .saveCursor => do some { t with saved := ← t.saved.push? t.cursor }.quietly
  | .mode change => t.changeMode? change
  | .origin origin => { t with modes := { t.modes with origin } }.goto? 0 0
  | .clearAllTabs => do
    let _ ← t.column?
    some t.clearAllTabs
  | .setTab => t.setTab? true
  | .clearTab => t.setTab? false
  | .lineSize size => t.setLineSize? size
  | .eraseInLine scope => t.eraseInLine? scope
  | .eraseInDisplay scope => t.eraseInDisplay? scope
  | .deleteChars count => t.deleteChars? count
  | .insertChars count => t.insertChars? count
  | .eraseChars count => t.eraseChars? count
  | .insertLines count => t.insertLines? count
  | .deleteLines count => t.deleteLines? count
  | .scrollUp count => t.scrollUp? count
  | .scrollDown count => t.scrollDown? count
  | .report kind => do some (t.telling [.reply (Text.asciiBytes (← t.reportText? kind))])
  | .led number => do some { t with leds := ← t.leds.light? number }.quietly
  | .margins top bottom => t.setMargins? top bottom
  | .resetMargins => t.setMargins? none none
  | .softReset => t.softReset?
  | .reset => t.reset?
  | .screenAlignment => t.alignScreen?
  | c => some (t.obey c)

end Terminal

theorem SavedCursors.push?_eq {s : SavedCursors} {width height : Nat} (h : s.Fits width height)
    (c : Cursor) : s.push? c = some (s.push c) := by
  have hroom := h.room
  have hbounded := h.bounded
  have hdepth : s.depth ≠ 0 := by omega
  rw [push?, push, if_neg hdepth, if_neg hdepth]
  split
  · next hfull =>
      simp only [minus?_eq (show s.depth ≤ s.entries.length + 1 by omega),
        minus?_eq (show s.entries.length + 1 - s.depth ≤ s.entries.length by omega),
        Option.bind_eq_bind, Option.bind_some]
      rw [show s.depth = s.entries.length - (s.entries.length + 1 - s.depth) + 1 by omega,
        List.take_succ_cons]
      congr 4
      omega
  · next hspace =>
      rw [List.take_of_length_le]
      exact Nat.lt_of_not_le hspace

theorem Leds.light?_eq (leds : Leds) (number : Nat) :
    leds.light? number = some (leds.light number) := by
  match number with
  | 0 | 1 | 2 | 3 | 4 => rfl
  | n + 5 =>
      rw [light?, if_neg (by omega)]
      rfl

namespace Terminal

variable {t : Terminal} {width height : Nat}

namespace Fits

theorem fullMargins?_eq (h : t.Fits width height) :
    t.fullMargins? = some (Margins.full t.height) := by
  simp only [fullMargins?, h.lastRow?_eq, Option.bind_eq_bind, Option.bind_some]
  rfl

theorem alignScreen?_eq (h : t.Fits width height) :
    t.alignScreen? = some t.alignScreen := by
  have hg := h.editLive?_eq fun g hg => hg.fill?_eq 'E'
  have ha : ({ t.editLive (·.fill 'E') with margins := Margins.full t.height }.moveTo 0 0).Fits
      width height := h.alignScreen
  simp only [alignScreen?, hg, h.fullMargins?_eq, ha.tellingRows?_eq, Option.bind_eq_bind,
    Option.bind_some]
  rfl

theorem setTab?_eq (h : t.Fits width height) (on : Bool) : t.setTab? on = some (t.setTab on) := by
  have hc : t.column < t.tabs.size := h.tabs ▸ h.column_lt
  simp only [setTab?, h.column?_eq, Plane.write?_eq on hc, Option.bind_eq_bind, Option.bind_some]
  rfl

theorem changeMode?_eq (h : t.Fits width height) (change : ModeChange) :
    t.changeMode? change = some (t.changeMode change) := by
  cases change with
  | screen kind =>
      have hs : { t with modes := { t.modes with screen := kind } }.Fits width height := { h with }
      simp only [changeMode?, Terminal.changeMode, hs.tellingRows?_eq, Option.bind_eq_bind,
        Option.bind_some]
      rfl
  | _ => rfl

theorem reportText?_eq (h : t.Fits width height) (kind : ReportKind) :
    t.reportText? kind = some (t.reportText kind) := by
  cases kind with
  | cursorPosition =>
      simp only [reportText?, h.column?_eq, Option.bind_eq_bind, Option.bind_some]
      rfl
  | _ => rfl

theorem softReset?_eq (h : t.Fits width height) : t.softReset? = some t.softReset := by
  simp only [softReset?, h.fullMargins?_eq, Option.bind_eq_bind, Option.bind_some]
  rfl

theorem reset?_eq (h : t.Fits width height) : t.reset? = some t.reset := by
  have hi : { initial t.width t.height t.saved.depth with margins := Margins.full t.height }.Fits
      width height := h.reset
  simp only [reset?, h.fullMargins?_eq, hi.tellingRows?_eq, Option.bind_eq_bind, Option.bind_some]
  rfl

/-- Every command goes through on a terminal whose parts fit, and does what it is said to do. -/
theorem obey?_eq (h : t.Fits width height) (c : Command) : t.obey? c = some (t.obey c) := by
  cases c with
  | tab =>
      simp only [obey?, h.nextStop?_eq, Option.bind_eq_bind, Option.bind_some]
      rfl
  | lineFeed | verticalTab | formFeed => exact h.lineFeed?_eq
  | print text => exact h.print?_eq text
  | arrow direction count => exact h.arrow?_eq direction count
  | home => exact h.goto?_eq 0 0
  | goto row col => exact h.goto?_eq _ _
  | gotoColumn col =>
      simp only [obey?, h.lastColumn?_eq, Option.bind_eq_bind, Option.bind_some]
      rfl
  | gotoRow row =>
      simp only [obey?, h.column?_eq, Option.bind_eq_bind, Option.bind_some]
      exact h.goto?_eq _ _
  | index => exact h.index?_eq
  | reverseIndex => exact h.reverseIndex?_eq
  | nextLine => exact h.nextLine?_eq
  | saveCursor =>
      simp only [obey?, SavedCursors.push?_eq h.saved, Option.bind_eq_bind, Option.bind_some]
      rfl
  | mode change => exact h.changeMode?_eq change
  | origin origin =>
      have ho : { t with modes := { t.modes with origin } }.Fits width height := { h with }
      exact ho.goto?_eq 0 0
  | clearAllTabs =>
      simp only [obey?, h.column?_eq, Option.bind_eq_bind, Option.bind_some]
      rfl
  | setTab | clearTab => exact h.setTab?_eq _
  | lineSize size => exact h.setLineSize?_eq size
  | eraseInLine scope => exact h.eraseInLine?_eq scope
  | eraseInDisplay scope => exact h.eraseInDisplay?_eq scope
  | deleteChars count => exact h.deleteChars?_eq count
  | insertChars count => exact h.insertChars?_eq count
  | eraseChars count => exact h.eraseChars?_eq count
  | insertLines count => exact h.insertLines?_eq count
  | deleteLines count => exact h.deleteLines?_eq count
  | scrollUp count => exact h.scrollUp?_eq count
  | scrollDown count => exact h.scrollDown?_eq count
  | report kind =>
      simp only [obey?, h.reportText?_eq, Option.bind_eq_bind, Option.bind_some]
      rfl
  | led number =>
      simp only [obey?, Leds.light?_eq, Option.bind_eq_bind, Option.bind_some]
      rfl
  | margins top bottom => exact h.setMargins?_eq top bottom
  | resetMargins => exact h.setMargins?_eq none none
  | softReset => exact h.softReset?_eq
  | reset => exact h.reset?_eq
  | screenAlignment => exact h.alignScreen?_eq
  | _ => rfl

end Fits

end Terminal

end TermReplay

import TermReplay.Proofs.CheckedMoves

/-!
Writing and erasing as machine steps, with every index, range and subtraction looked at. Each
operation goes through on a terminal whose parts fit together.
-/

namespace TermReplay

namespace Terminal

def settleWrap? (t : Terminal) : Option Reaction :=
  if t.cursor.x = t.width then
    if t.modes.autoWrap then (t.moveTo 0 t.cursor.y).advanceLine?
    else do some (t.moveTo (← t.lastColumn?) t.cursor.y).quietly
  else some t.quietly

def place? (t : Terminal) (char : Char) : Option Reaction := do
  let x := t.cursor.x
  let y := t.cursor.y
  let cell : Cell := { char, pen := t.cursor.pen }
  if t.modes.insert then
    let shifted ← t.editLive? (·.insertCell? x y cell)
    let last ← t.lastColumn?
    (shifted.telling [.change y x last]).andThen? fun t =>
      some (t.moveTo (x + 1) y).tellingCursor
  else
    let written ← t.editLive? (·.set? x y cell)
    (written.telling [.change y x x]).andThen? fun t =>
      some (t.moveTo (x + 1) y).tellingCursor

def printChar? (char : Char) (t : Terminal) : Option Reaction := do
  let shown := t.designations.translate char
  (← t.settleWrap?).andThen? (·.place? shown)

def each? {α : Type} (f : α → Terminal → Option Reaction) : List α → Terminal → Option Reaction
  | [], t => some t.quietly
  | a :: rest, t => do (← f a t).andThen? (each? f rest)

def print? (t : Terminal) (text : String) : Option Reaction := each? printChar? text.toList t

def blankColumns? (t : Terminal) (first last : Nat) : Option Reaction := do
  let y := t.cursor.y
  some ((← t.editLive? (·.blankSpan? y first last)).telling [.change y first last])

def eraseInLine? (t : Terminal) (scope : EraseScope) : Option Reaction := do
  let column ← t.column?
  let last ← t.lastColumn?
  match scope with
  | .toEnd => t.blankColumns? column last
  | .toStart => t.blankColumns? 0 column
  | .whole => t.blankColumns? 0 last

def blankRows? (t : Terminal) (first stop : Nat) (order : List Nat → List Nat) :
    Option Reaction := do
  (← t.editLive? (·.blankRows? first stop)).tellingRows? (order (rowsUpTo first stop))

def eraseInDisplay? (t : Terminal) (scope : EraseScope) : Option Reaction := do
  let y := t.cursor.y
  match scope with
  | .toEnd => (← t.eraseInLine? .toEnd).andThen? fun t => t.blankRows? (y + 1) t.height id
  | .toStart => (← t.eraseInLine? .toStart).andThen? fun t => t.blankRows? 0 y List.reverse
  | .whole => t.blankRows? 0 t.height id

def repeat? (f : Grid → Option Grid) : Nat → Grid → Option Grid
  | 0, g => some g
  | count + 1, g => do f (← repeat? f count g)

/-- Edits the cells of the row from the cursor on, at most once for each of them. -/
def editRest? (t : Terminal) (count : Nat) (f : Nat → Nat → Grid → Option Grid) :
    Option Reaction := do
  let x ← t.column?
  let y := t.cursor.y
  let room ← minus? t.width x
  let edited ← t.editLive? (repeat? (f x y) (min count room))
  let last ← t.lastColumn?
  some (edited.telling [.change y x last])

def deleteChars? (t : Terminal) (count : Nat) : Option Reaction :=
  t.editRest? count fun x y g => g.deleteCell? x y

def insertChars? (t : Terminal) (count : Nat) : Option Reaction :=
  t.editRest? count fun x y g => g.insertCell? x y .blank

def eraseChars? (t : Terminal) (count : Nat) : Option Reaction := do
  let x ← t.column?
  let last ← minus? (x + max count 1) 1
  t.blankColumns? x (min last (← t.lastColumn?))

def editLines? (t : Terminal) (count : Nat) (f : Nat → Nat → Grid → Option Grid) :
    Option Reaction :=
  let y := t.cursor.y
  let bottom := t.margins.bottom
  if y < t.margins.top ∨ bottom < y then some t.quietly
  else do
    let below ← minus? bottom y
    let edited ← t.editLive? (repeat? (f y bottom) (min count (below + 1)))
    edited.tellingRows? (rowsUpTo y (bottom + 1))

def insertLines? (t : Terminal) (count : Nat) : Option Reaction :=
  t.editLines? count fun y bottom g => do some (← g.cycleRows? bottom y).2

def deleteLines? (t : Terminal) (count : Nat) : Option Reaction :=
  t.editLines? count fun y bottom g => do some (← g.cycleRows? y bottom).2

def setLineSize? (t : Terminal) (size : LineSize) : Option Reaction := do
  let y := t.cursor.y
  (← t.editLive? (·.setLineSize? y size)).tellingRows? [y]

variable {t : Terminal} {width height : Nat}

theorem each?_eq {α : Type} {P : Terminal → Prop} {f? : α → Terminal → Option Reaction}
    {f : α → Terminal → Reaction}
    (step : ∀ a t, P t → f? a t = some (f a t) ∧ P (f a t).terminal) (as : List α) (h : P t) :
    each? f? as t = some (each f as t) := by
  induction as generalizing t with
  | nil => rfl
  | cons a as ih =>
      obtain ⟨ha, hkeep⟩ := step a t h
      simp only [each?, ha, Option.bind_eq_bind, Option.bind_some]
      exact Reaction.andThen?_eq (ih hkeep)

theorem repeat?_eq {f? : Grid → Option Grid} {f : Grid → Grid}
    (step : ∀ g : Grid, g.Fits width height → f? g = some (f g) ∧ (f g).Fits width height)
    (count : Nat) {g : Grid} (hg : g.Fits width height) :
    repeat? f? count g = some (Nat.repeat f count g) := by
  induction count with
  | zero => rfl
  | succ count ih =>
      simp only [repeat?, ih, Option.bind_eq_bind, Option.bind_some]
      exact (step _ (repeat_fits (fun g hg => (step g hg).2) count hg)).1

namespace Fits

theorem settleWrap?_eq (h : t.Fits width height) : t.settleWrap? = some t.settleWrap := by
  simp only [settleWrap?, Terminal.settleWrap]
  split
  · split
    · exact (h.moveTo (Nat.zero_le width) h.cursor.2).advanceLine?_eq
    · simp only [h.lastColumn?_eq, Option.bind_eq_bind, Option.bind_some]
  · rfl

theorem place?_eq (h : t.Fits width height) (hx : t.cursor.x < width) (char : Char) :
    t.place? char = some (t.place char) := by
  have hy := h.cursor.2
  simp only [place?, Terminal.place]
  split
  · have hg := h.editLive?_eq fun g hg => hg.insertCell?_eq ⟨char, t.cursor.pen⟩ hx hy
    simp only [hg, h.lastColumn?_eq, Option.bind_eq_bind, Option.bind_some]
    exact Reaction.andThen?_eq rfl
  · have hg := h.editLive?_eq fun g hg => hg.set?_eq ⟨char, t.cursor.pen⟩ hx hy
    simp only [hg, Option.bind_eq_bind, Option.bind_some]
    exact Reaction.andThen?_eq rfl

theorem printChar?_eq (h : t.Fits width height) (char : Char) :
    printChar? char t = some (Terminal.printChar char t) := by
  obtain ⟨hs, hx⟩ := h.settleWrap
  simp only [printChar?, Terminal.printChar, h.settleWrap?_eq, Option.bind_eq_bind,
    Option.bind_some]
  apply Reaction.andThen?_eq
  exact hs.place?_eq hx _

theorem print?_eq (h : t.Fits width height) (text : String) :
    t.print? text = some (t.print text) :=
  each?_eq (P := (·.Fits width height))
    (fun char _ ht => ⟨ht.printChar?_eq char, ht.printChar char⟩) text.toList h

theorem blankColumns?_eq (h : t.Fits width height) {first last : Nat} (hl : last < width) :
    t.blankColumns? first last = some (t.blankColumns first last) := by
  have hg : t.editLive? (·.blankSpan? t.cursor.y first last) =
      some (t.editLive (·.blankSpan t.cursor.y first last)) :=
    h.editLive?_eq fun _ hg => hg.blankSpan?_eq hl h.cursor.2
  simp only [blankColumns?, hg, Option.bind_eq_bind, Option.bind_some]
  rfl

theorem eraseInLine?_eq (h : t.Fits width height) (scope : EraseScope) :
    t.eraseInLine? scope = some (t.eraseInLine scope) := by
  simp only [eraseInLine?, h.column?_eq, h.lastColumn?_eq, Option.bind_eq_bind, Option.bind_some]
  cases scope with
  | toStart => exact h.blankColumns?_eq h.column_lt
  | toEnd => exact h.blankColumns?_eq h.lastColumn_lt
  | whole => exact h.blankColumns?_eq h.lastColumn_lt

theorem blankRows?_eq (h : t.Fits width height) {first stop : Nat} (hs : stop ≤ height)
    (order : List Nat → List Nat) :
    t.blankRows? first stop order = some (t.blankRows first stop order) := by
  have hb : (t.editLive (·.blankRows first stop)).Fits width height := h.blankRows hs order
  have hg : t.editLive? (·.blankRows? first stop) = some (t.editLive (·.blankRows first stop)) :=
    h.editLive?_eq fun _ hg => hg.blankRows?_eq h.width_pos hs
  simp only [blankRows?, hg, Option.bind_eq_bind, Option.bind_some, hb.tellingRows?_eq,
    editLive_wholeRows]
  rfl

theorem eraseInDisplay?_eq (h : t.Fits width height) (scope : EraseScope) :
    t.eraseInDisplay? scope = some (t.eraseInDisplay scope) := by
  have hy := Nat.le_of_lt h.cursor.2
  simp only [eraseInDisplay?, Terminal.eraseInDisplay, h.eraseInLine?_eq, Option.bind_eq_bind,
    Option.bind_some]
  cases scope with
  | toStart =>
      apply Reaction.andThen?_eq
      exact (h.eraseInLine .toStart).blankRows?_eq hy List.reverse
  | toEnd =>
      have hl := h.eraseInLine .toEnd
      apply Reaction.andThen?_eq
      exact hl.blankRows?_eq (Nat.le_of_eq hl.height_eq) id
  | whole => exact h.blankRows?_eq (Nat.le_of_eq h.height_eq) id

theorem editRest?_eq (h : t.Fits width height) (count : Nat)
    {f? : Nat → Nat → Grid → Option Grid} {f : Nat → Nat → Grid → Grid}
    (step : ∀ g : Grid, g.Fits width height → f? t.column t.cursor.y g =
      some (f t.column t.cursor.y g) ∧ (f t.column t.cursor.y g).Fits width height) :
    t.editRest? count f? =
      some (t.editLive (Nat.repeat (f t.column t.cursor.y)
        (min count (t.width - t.column)))).tellingRest := by
  have hroom : t.column ≤ t.width := h.width_eq ▸ Nat.le_of_lt h.column_lt
  have hg := h.editLive?_eq fun g hg => repeat?_eq step (min count (t.width - t.column)) hg
  simp only [editRest?, h.column?_eq, minus?_eq hroom, hg, h.lastColumn?_eq, Option.bind_eq_bind,
    Option.bind_some, editLive_tellingRest]

theorem deleteChars?_eq (h : t.Fits width height) (count : Nat) :
    t.deleteChars? count = some (t.deleteChars count) :=
  h.editRest?_eq count (f := fun x y g => g.deleteCell x y) fun _ hg =>
    ⟨hg.deleteCell?_eq h.column_lt h.cursor.2, hg.deleteCell h.column_lt h.cursor.2⟩

theorem insertChars?_eq (h : t.Fits width height) (count : Nat) :
    t.insertChars? count = some (t.insertChars count) :=
  h.editRest?_eq count (f := fun x y g => g.insertCell x y .blank) fun _ hg =>
    ⟨hg.insertCell?_eq _ h.column_lt h.cursor.2, hg.insertCell _ h.column_lt h.cursor.2⟩

theorem eraseChars?_eq (h : t.Fits width height) (count : Nat) :
    t.eraseChars? count = some (t.eraseChars count) := by
  simp only [eraseChars?, h.column?_eq, h.lastColumn?_eq,
    minus?_eq (show 1 ≤ t.column + max count 1 by omega), Option.bind_eq_bind, Option.bind_some]
  exact h.blankColumns?_eq (Nat.lt_of_le_of_lt (Nat.min_le_right ..) h.lastColumn_lt)

theorem editLines?_eq (h : t.Fits width height) (count : Nat)
    {f? : Nat → Nat → Grid → Option Grid} {f : Nat → Nat → Grid → Grid}
    (step : ∀ g : Grid, g.Fits width height → f? t.cursor.y t.margins.bottom g =
      some (f t.cursor.y t.margins.bottom g) ∧
        (f t.cursor.y t.margins.bottom g).Fits width height) :
    t.editLines? count f? = some (t.editLines count f) := by
  simp only [editLines?, editLines]
  split
  · rfl
  · next hin =>
      have hbelow : t.cursor.y ≤ t.margins.bottom := by omega
      have he := h.editLive fun g hg => repeat_fits (fun g hg => (step g hg).2)
        (min count (t.margins.bottom - t.cursor.y + 1)) hg
      have hg := h.editLive?_eq fun g hg => repeat?_eq step
        (min count (t.margins.bottom - t.cursor.y + 1)) hg
      simp only [minus?_eq hbelow, hg, he.tellingRows?_eq, Option.bind_eq_bind, Option.bind_some,
        editLive_wholeRows]

theorem insertLines?_eq (h : t.Fits width height) (count : Nat) :
    t.insertLines? count = some (t.insertLines count) :=
  h.editLines?_eq count (f := fun y bottom g => g.cycleRows bottom y) fun _ hg =>
    ⟨by rw [hg.cycleRows?_eq h.margins.2 h.cursor.2]; rfl, hg.cycleRows h.margins.2 h.cursor.2⟩

theorem deleteLines?_eq (h : t.Fits width height) (count : Nat) :
    t.deleteLines? count = some (t.deleteLines count) :=
  h.editLines?_eq count (f := fun y bottom g => g.cycleRows y bottom) fun _ hg =>
    ⟨by rw [hg.cycleRows?_eq h.cursor.2 h.margins.2]; rfl, hg.cycleRows h.cursor.2 h.margins.2⟩

theorem setLineSize?_eq (h : t.Fits width height) (size : LineSize) :
    t.setLineSize? size = some (t.setLineSize size) := by
  have hy := h.cursor.2
  have he := h.editLive fun g hg => hg.setLineSize t.cursor.y size
  have hg := h.editLive?_eq fun g hg => hg.setLineSize?_eq size hy
  simp only [setLineSize?, hg, he.tellingRows?_eq, Option.bind_eq_bind, Option.bind_some,
    editLive_wholeRows]
  rfl

end Fits

end Terminal

end TermReplay

import TermReplay.Proofs.CheckedGrids
import TermReplay.Proofs.Preservation

/-!
Moving and scrolling as machine steps. A step fails where it would leave an array or go below
zero; on a terminal whose parts fit together none does, and the reaction is the one without
checks.
-/

namespace TermReplay

def Reaction.andThen? (r : Reaction) (f : Terminal → Option Reaction) : Option Reaction := do
  let s ← f r.terminal
  some ⟨s.terminal, r.notices ++ s.notices⟩

theorem Reaction.andThen?_eq {r : Reaction} {f? : Terminal → Option Reaction}
    {f : Terminal → Reaction} (h : f? r.terminal = some (f r.terminal)) :
    r.andThen? f? = some (r.andThen f) := by
  simp only [andThen?, h, Option.bind_eq_bind, Option.bind_some]
  rfl

theorem Reaction.andThen?_some (r : Reaction) (f : Terminal → Reaction) :
    (r.andThen? fun t => some (f t)) = some (r.andThen f) := rfl

namespace Terminal

def editLive? (t : Terminal) (f : Grid → Option Grid) : Option Terminal := do
  let grid ← f t.live
  some (t.editLive fun _ => grid)

def lastColumn? (t : Terminal) : Option Nat := minus? t.width 1

def lastRow? (t : Terminal) : Option Nat := minus? t.height 1

def column? (t : Terminal) : Option Nat := do some (min t.cursor.x (← t.lastColumn?))

def rowBounds? (t : Terminal) : Option (Nat × Nat) :=
  match t.modes.origin with
  | .screen => do some (0, ← t.lastRow?)
  | .margin => some (t.margins.top, t.margins.bottom)

def tellingRows? (t : Terminal) (rows : List Nat) : Option Reaction := do
  let last ← t.lastColumn?
  some (t.telling (rows.map fun y => .change y 0 last))

def goto? (t : Terminal) (x y : Nat) : Option Reaction := do
  let column ← t.lastColumn?
  let row ←
    match t.modes.origin with
    | .screen => do some (min y (← t.lastRow?))
    | .margin => some (min (y + t.margins.top) t.margins.bottom)
  some (t.moveTo (min x column) row).tellingCursor

def arrow? (t : Terminal) (direction : Direction) (count : Nat) : Option Reaction := do
  let (first, last) ← t.rowBounds?
  let c := t.cursor
  match direction with
  | .up => some (t.moveTo c.x (max (c.y - count) first)).tellingCursor
  | .down => some (t.moveTo c.x (min (c.y + count) last)).tellingCursor
  | .left => some (t.moveTo (c.x - count) c.y).tellingCursor
  | .right => do some (t.moveTo (min (c.x + count) (← t.lastColumn?)) c.y).tellingCursor

def cycleRows? (remove insert : Nat) (direction : Int) : Nat → Terminal → Option Reaction
  | 0, t => some t.quietly
  | count + 1, t => do
    let (line, grid) ← t.live.cycleRows? remove insert
    ((t.editLive fun _ => grid).telling [.scrolled line direction]).andThen?
      (cycleRows? remove insert direction count)

def regionHeight? (t : Terminal) : Option Nat := do
  some ((← minus? t.margins.bottom t.margins.top) + 1)

def tellingRegion? (t : Terminal) : Option Reaction :=
  t.tellingRows? (rowsUpTo t.margins.top (t.margins.bottom + 1))

def scrollUp? (t : Terminal) (count : Nat) : Option Reaction :=
  if count = 0 then some t.quietly
  else do
    let rows ← t.regionHeight?
    (← cycleRows? t.margins.top t.margins.bottom 1 (min count rows) t).andThen? tellingRegion?

def scrollDown? (t : Terminal) (count : Nat) : Option Reaction :=
  if count = 0 then some t.quietly
  else do
    let rows ← t.regionHeight?
    (← cycleRows? t.margins.bottom t.margins.top (-1) (min count rows) t).andThen? tellingRegion?

def limitRow? (t : Terminal) : Option Terminal := do
  let row ← if t.height ≤ t.cursor.y then t.lastRow? else some t.cursor.y
  some (t.moveTo t.cursor.x row)

def advanceLine? (t : Terminal) : Option Reaction := do
  let bottom := t.margins.bottom
  let down := t.moveTo t.cursor.x (t.cursor.y + 1)
  let settled ←
    if down.cursor.y = bottom + 1 then do
      (← down.scrollUp? 1).andThen? fun t => some (t.moveTo t.cursor.x bottom).quietly
    else some down.quietly
  settled.andThen? fun t => do some (← t.limitRow?).quietly

def firstStop? (tabs : Array Bool) (edge : Nat) : List Nat → Option Nat
  | [] => some edge
  | x :: rest => do if ← tabs[x]? then some x else firstStop? tabs edge rest

def nextStop? (t : Terminal) : Option Nat :=
  firstStop? t.tabs t.width (rowsUpTo (t.cursor.x + 1) t.width)

def index? (t : Terminal) : Option Reaction :=
  if t.cursor.y = t.margins.bottom then t.scrollUp? 1
  else if t.cursor.y + 1 < t.height then
    some (t.moveTo t.cursor.x (t.cursor.y + 1)).tellingCursor
  else some t.quietly

def reverseIndex? (t : Terminal) : Option Reaction :=
  if t.cursor.y = t.margins.top then t.scrollDown? 1
  else if 0 < t.cursor.y then do
    some (t.moveTo t.cursor.x (← minus? t.cursor.y 1)).tellingCursor
  else some t.quietly

def nextLine? (t : Terminal) : Option Reaction := do
  (← t.index?).andThen? fun t => some t.returnCarriage

def lineFeed? (t : Terminal) : Option Reaction := do
  (← t.advanceLine?).andThen? fun t =>
    match t.modes.newLine with
    | .feed => some t.tellingCursor
    | .feedAndReturn => some t.returnCarriage

/-- Limits a number to an interval, which must not be empty. -/
def clamp? (n low high : Nat) : Option Nat :=
  if low ≤ high then some (max low (min n high)) else none

def marginsFor? (height : Nat) (top bottom : Option Nat) : Option Margins := do
  let fromEdge? (bound : Option Nat) (edge : Nat) : Option Nat :=
    match bound with
    | none | some 0 => minus? edge 1
    | some n => minus? n 1
  let top ← fromEdge? top 1
  let bottom ← fromEdge? bottom height
  let top := if bottom ≤ top + 1 then bottom - 1 else top
  let top := min top (← minus? height 2)
  let bottom ← clamp? bottom 1 (← minus? height 1)
  if bottom ≤ top then do some ⟨← minus? bottom 1, bottom⟩
  else some ⟨top, bottom⟩

def setMargins? (t : Terminal) (top bottom : Option Nat) : Option Reaction := do
  let margins ← marginsFor? t.height top bottom
  { t with margins }.goto? 0 0

variable {t : Terminal} {width height : Nat}

namespace Fits

theorem editLive?_eq (h : t.Fits width height) {f? : Grid → Option Grid} {f : Grid → Grid}
    (step : ∀ g : Grid, g.Fits width height → f? g = some (f g)) :
    t.editLive? f? = some (t.editLive f) := by
  simp only [editLive?, step _ h.live, Option.bind_eq_bind, Option.bind_some, editLive_live_const]

theorem lastColumn?_eq (h : t.Fits width height) : t.lastColumn? = some t.lastColumn :=
  minus?_eq (h.width_eq ▸ h.width_pos)

theorem lastRow?_eq (h : t.Fits width height) : t.lastRow? = some t.lastRow :=
  minus?_eq (h.height_eq ▸ Nat.le_of_succ_le h.two_rows)

theorem column?_eq (h : t.Fits width height) : t.column? = some t.column := by
  simp only [column?, h.lastColumn?_eq, Option.bind_eq_bind, Option.bind_some]
  rfl

theorem rowBounds?_eq (h : t.Fits width height) : t.rowBounds? = some t.rowBounds := by
  simp only [rowBounds?, rowBounds, h.lastRow?_eq, Option.bind_eq_bind, Option.bind_some]
  cases t.modes.origin <;> rfl

theorem tellingRows?_eq_of_column (hc : t.lastColumn? = some t.lastColumn) (rows : List Nat) :
    t.tellingRows? rows = some (t.telling (t.wholeRows rows)) := by
  simp only [tellingRows?, hc, Option.bind_eq_bind, Option.bind_some]
  rfl

theorem tellingRows?_eq (h : t.Fits width height) (rows : List Nat) :
    t.tellingRows? rows = some (t.telling (t.wholeRows rows)) :=
  tellingRows?_eq_of_column h.lastColumn?_eq rows

theorem goto?_eq (h : t.Fits width height) (x y : Nat) : t.goto? x y = some (t.goto x y) := by
  simp only [goto?, Terminal.goto, h.lastColumn?_eq, h.lastRow?_eq, Option.bind_eq_bind,
    Option.bind_some]
  cases t.modes.origin <;> rfl

theorem arrow?_eq (h : t.Fits width height) (direction : Direction) (count : Nat) :
    t.arrow? direction count = some (t.arrow direction count) := by
  simp only [arrow?, Terminal.arrow, h.rowBounds?_eq, h.lastColumn?_eq, Option.bind_eq_bind,
    Option.bind_some]
  cases direction <;> rfl

/-- The cursor alone need not fit. -/
theorem cycleRows?_eq {remove insert x y : Nat} (hr : remove < height) (hi : insert < height)
    (direction : Int) (count : Nat) (h : (t.moveTo x y).Fits width height) :
    cycleRows? remove insert direction count t =
      some (Terminal.cycleRows remove insert direction count t) := by
  induction count generalizing t with
  | zero => rfl
  | succ count ih =>
      have hlive : t.live.Fits width height := h.live
      have hstep : (t.editLive fun _ => t.live.cycleRows remove insert) =
          t.editLive (·.cycleRows remove insert) :=
        t.editLive_live_const (·.cycleRows remove insert)
      have hnext := h.editLive fun _ hg => hg.cycleRows hr hi
      rw [editLive_moveTo] at hnext
      simp only [cycleRows?, hlive.cycleRows?_eq hr hi, Option.bind_eq_bind,
        Option.bind_some, hstep]
      exact Reaction.andThen?_eq (ih hnext)

theorem regionHeight?_eq (h : t.Fits width height) :
    t.regionHeight? = some t.regionHeight := by
  simp only [regionHeight?, minus?_eq (Nat.le_of_lt h.margins.1), Option.bind_eq_bind,
    Option.bind_some]
  rfl

theorem tellingRegion?_eq (h : t.Fits width height) :
    t.tellingRegion? = some t.tellingRegion := h.tellingRows?_eq _

theorem cycledRegion?_eq {remove insert x y : Nat} (hr : remove < height) (hi : insert < height)
    (direction : Int) (count : Nat) (h : (t.moveTo x y).Fits width height) :
    (do (← cycleRows? remove insert direction count t).andThen? tellingRegion?) =
      some ((Terminal.cycleRows remove insert direction count t).andThen tellingRegion) := by
  have hafter := h.cycleRows hr hi direction count
  rw [cycleRows_moveTo] at hafter
  rw [cycleRows?_eq hr hi direction count h, Option.bind_eq_bind, Option.bind_some]
  refine Reaction.andThen?_eq (tellingRows?_eq_of_column ?_ _)
  exact hafter.lastColumn?_eq

theorem scrollUp?_eq_of_moved {x y : Nat} (h : (t.moveTo x y).Fits width height) (count : Nat) :
    t.scrollUp? count = some (t.scrollUp count) := by
  obtain ⟨htop, hbottom⟩ := h.margins
  have hrows : t.regionHeight? = some t.regionHeight := h.regionHeight?_eq
  simp only [scrollUp?, Terminal.scrollUp]
  split
  · rfl
  · rw [hrows, Option.bind_eq_bind, Option.bind_some]
    exact cycledRegion?_eq (Nat.lt_trans htop hbottom) hbottom 1 _ h

theorem scrollUp?_eq (h : t.Fits width height) (count : Nat) :
    t.scrollUp? count = some (t.scrollUp count) :=
  scrollUp?_eq_of_moved (x := t.cursor.x) (y := t.cursor.y) h count

theorem scrollDown?_eq (h : t.Fits width height) (count : Nat) :
    t.scrollDown? count = some (t.scrollDown count) := by
  obtain ⟨htop, hbottom⟩ := h.margins
  simp only [scrollDown?, Terminal.scrollDown]
  split
  · rfl
  · rw [h.regionHeight?_eq, Option.bind_eq_bind, Option.bind_some]
    exact cycledRegion?_eq (x := t.cursor.x) (y := t.cursor.y) hbottom
      (Nat.lt_trans htop hbottom) (-1) _ h

theorem limitRow?_eq (hh : 1 ≤ t.height) : t.limitRow? = some t.limitRow := by
  simp only [limitRow?, limitRow, lastRow?, minus?_eq hh, Option.bind_eq_bind]
  split <;> rfl

theorem advanceLine?_eq (h : t.Fits width height) :
    t.advanceLine? = some t.advanceLine := by
  let down := t.moveTo t.cursor.x (t.cursor.y + 1)
  have hscroll : down.scrollUp? 1 = some (down.scrollUp 1) :=
    scrollUp?_eq_of_moved (t := down) (x := t.cursor.x) (y := t.cursor.y) h 1
  have hlimit (u : Terminal) (hu : u.height = t.height) :
      (do some (← u.limitRow?).quietly : Option Reaction) = some u.limitRow.quietly := by
    have hh : 1 ≤ u.height := by rw [hu, h.height_eq]; exact Nat.le_of_succ_le h.two_rows
    simp only [limitRow?_eq hh, Option.bind_eq_bind, Option.bind_some]
  rw [advanceLine?, Terminal.advanceLine]
  dsimp only
  split
  · rw [hscroll, Option.bind_eq_bind, Option.bind_eq_bind, Option.bind_some, Reaction.andThen?_some,
      Option.bind_some]
    exact Reaction.andThen?_eq (hlimit _ (down.scrollUp_height 1))
  · rw [Option.bind_eq_bind, Option.bind_some]
    exact Reaction.andThen?_eq (hlimit _ rfl)

theorem firstStop?_eq {tabs : Array Bool} {edge : Nat} {columns : List Nat}
    (hc : ∀ x ∈ columns, x < tabs.size) :
    firstStop? tabs edge columns =
      some ((columns.find? fun x => tabs[x]?.getD false).getD edge) := by
  induction columns with
  | nil => rfl
  | cons x columns ih =>
      obtain ⟨stop, hx⟩ : ∃ stop, tabs[x]? = some stop :=
        ⟨_, Array.getElem?_eq_getElem (hc x (List.mem_cons_self ..))⟩
      have hrest := ih fun x hm => hc x (List.mem_cons_of_mem _ hm)
      simp only [firstStop?, hx, Option.bind_eq_bind, Option.bind_some, List.find?_cons,
        Option.getD_some]
      cases stop with
      | true => rfl
      | false => exact hrest

theorem nextStop?_eq (h : t.Fits width height) : t.nextStop? = some t.nextStop := by
  refine firstStop?_eq ?_
  intro x hx
  rw [rowsUpTo, List.mem_range'_1] at hx
  have hw := h.width_eq
  have ht := h.tabs
  omega

theorem index?_eq (h : t.Fits width height) : t.index? = some t.index := by
  simp only [index?, Terminal.index, h.scrollUp?_eq]
  split
  · rfl
  · split <;> rfl

theorem reverseIndex?_eq (h : t.Fits width height) : t.reverseIndex? = some t.reverseIndex := by
  simp only [reverseIndex?, Terminal.reverseIndex, h.scrollDown?_eq]
  split
  · rfl
  · split
    · next hpos =>
        simp only [minus?_eq (show 1 ≤ t.cursor.y from hpos), Option.bind_eq_bind,
          Option.bind_some]
    · rfl

theorem nextLine?_eq (h : t.Fits width height) : t.nextLine? = some t.nextLine := by
  simp only [nextLine?, h.index?_eq, Option.bind_eq_bind, Option.bind_some]
  exact Reaction.andThen?_eq rfl

theorem lineFeed?_eq (h : t.Fits width height) : t.lineFeed? = some t.lineFeed := by
  simp only [lineFeed?, h.advanceLine?_eq, Option.bind_eq_bind, Option.bind_some]
  refine Reaction.andThen?_eq ?_
  cases t.advanceLine.terminal.modes.newLine <;> rfl

end Fits

theorem marginsFor?_eq (hh : 2 ≤ height) (top bottom : Option Nat) :
    marginsFor? height top bottom = some (marginsFor height top bottom) := by
  have hedge : ∀ (bound : Option Nat) (edge : Nat), 1 ≤ edge →
      (match bound with
        | none | some 0 => minus? edge 1
        | some n => minus? n 1) =
        some (match bound with
          | none | some 0 => edge - 1
          | some n => n - 1) := by
    intro bound edge he
    match bound with
    | none | some 0 => exact minus?_eq he
    | some (n + 1) => exact minus?_eq (Nat.le_add_left 1 n)
  unfold marginsFor? marginsFor
  extract_lets fromEdge? fromEdge a b c d e
  have ha : fromEdge? top 1 = some a := hedge top 1 (Nat.le_refl 1)
  have hb : fromEdge? bottom height = some b := hedge bottom height (by omega)
  have hclamp : clamp? b 1 (height - 1) = some e := if_pos (by omega)
  simp only [ha, hb, minus?_eq hh, minus?_eq (show 1 ≤ height by omega), hclamp,
    Option.bind_eq_bind, Option.bind_some]
  by_cases he : e ≤ d
  · rw [if_pos he, if_pos he, minus?_eq (by omega)]
    rfl
  · rw [if_neg he, if_neg he]

theorem Fits.setMargins?_eq (h : t.Fits width height) (top bottom : Option Nat) :
    t.setMargins? top bottom = some (t.setMargins top bottom) := by
  have hm : { t with margins := marginsFor t.height top bottom }.Fits width height :=
    { h with margins := h.height_eq ▸ marginsFor_inside h.two_rows top bottom }
  simp only [setMargins?, marginsFor?_eq (h.height_eq ▸ h.two_rows), Option.bind_eq_bind,
    Option.bind_some]
  exact hm.goto?_eq 0 0

end Terminal

end TermReplay

import TermReplay.Proofs.Drawing
import TermReplay.Proofs.FullScreen
import TermReplay.Proofs.Reachability

/-!
Erasing. Each way to erase blanks an area that depends on the cursor only, and gives rows that it
blanks as a whole their normal size back. One erasure after the other erases both areas, so doing
it again does nothing more, and the two partial scopes make up the whole.
-/

namespace TermReplay

/-- Cells to blank, and rows that go back to normal size. -/
structure Area where
  cell : Nat → Nat → Bool
  row : Nat → Bool

namespace Area

def join (a b : Area) : Area where
  cell x y := a.cell x y || b.cell x y
  row y := a.row y || b.row y

theorem cell_join (a b : Area) (x y : Nat) :
    (a.join b).cell x y = (a.cell x y || b.cell x y) := rfl

theorem row_join (a b : Area) (y : Nat) : (a.join b).row y = (a.row y || b.row y) := rfl

theorem join_self (a : Area) : a.join a = a := by simp only [join, Bool.or_self]

def columns (y first last : Nat) : Area where
  cell x row := row == y && (first ≤ x && x ≤ last)
  row _ := false

def rows (first stop : Nat) : Area where
  cell _ y := first ≤ y && y < stop
  row y := first ≤ y && y < stop

end Area

namespace EraseScope

/-- The positions on the side of the scope, without `here` itself. -/
def beyond : EraseScope → Nat → Nat → Bool
  | .toStart, here, i => i < here
  | .toEnd, here, i => here < i
  | .whole, _, _ => true

def reaches (scope : EraseScope) (here i : Nat) : Bool := i == here || scope.beyond here i

theorem reaches_toStart (here i : Nat) : toStart.reaches here i = decide (i ≤ here) := by
  rw [reaches, beyond, Bool.eq_iff_iff]
  simp only [Bool.or_eq_true, beq_iff_eq, decide_eq_true_eq]
  omega

theorem reaches_toEnd (here i : Nat) : toEnd.reaches here i = decide (here ≤ i) := by
  rw [reaches, beyond, Bool.eq_iff_iff]
  simp only [Bool.or_eq_true, beq_iff_eq, decide_eq_true_eq]
  omega

theorem reaches_whole (here i : Nat) : whole.reaches here i = true := Bool.or_true _

/-- What is on neither side of a position is the position itself. -/
theorem beyond_or_beyond {first second : EraseScope}
    (h : [first, second].Perm [.toEnd, .toStart]) {here i : Nat} (hi : i ≠ here) :
    (first.beyond here i || second.beyond here i) = true := by
  cases first <;> cases second
  case toStart.toEnd | toEnd.toStart =>
    simp only [beyond, Bool.or_eq_true, decide_eq_true_eq]
    omega
  all_goals exact absurd h (by decide)

theorem reaches_or_reaches {first second : EraseScope}
    (h : [first, second].Perm [.toEnd, .toStart]) (here i : Nat) :
    (first.reaches here i || second.reaches here i) = true := by
  by_cases hi : i = here
  · rw [reaches, beq_iff_eq.mpr hi, Bool.true_or, Bool.true_or]
  · rw [reaches, reaches, beq_eq_false_iff_ne.mpr hi, Bool.false_or, Bool.false_or,
      beyond_or_beyond h hi]

end EraseScope

inductive Erasure
  | inLine (scope : EraseScope)
  | inDisplay (scope : EraseScope)
  | chars (count : Nat)
  deriving DecidableEq, Repr

namespace Erasure

def command : Erasure → Command
  | inLine scope => .eraseInLine scope
  | inDisplay scope => .eraseInDisplay scope
  | chars count => .eraseChars count

/-- What is erased with the cursor of `t`. The row of the cursor is never a whole row of a partial
scope. -/
def area (t : Terminal) : Erasure → Area
  | inLine scope =>
    { cell := fun x y => y == t.cursor.y && scope.reaches t.column x
      row := fun _ => false }
  | inDisplay scope =>
    { cell := fun x y =>
        scope.beyond t.cursor.y y || (y == t.cursor.y && scope.reaches t.column x)
      row := scope.beyond t.cursor.y }
  | chars count =>
    .columns t.cursor.y t.column (min (t.column + max count 1 - 1) t.lastColumn)

theorem area_of_redrawn {t u : Terminal} (h : t.Redrawn u) (e : Erasure) : e.area u = e.area t := by
  cases e <;> simp only [area, h.cursor, h.column, h.lastColumn]

theorem displays_join {first second : EraseScope}
    (h : [first, second].Perm [.toEnd, .toStart]) (t : Terminal) (x y : Nat) :
    (((inDisplay first).area t).join ((inDisplay second).area t)).cell x y = true := by
  rw [Area.cell_join, area, area]
  by_cases hy : y = t.cursor.y
  · have hreached := EraseScope.reaches_or_reaches h t.column x
    simp only [beq_iff_eq.mpr hy, Bool.true_and, Bool.or_eq_true] at hreached ⊢
    exact hreached.imp .inr .inr
  · have hbeyond := EraseScope.beyond_or_beyond h hy
    simp only [Bool.or_eq_true] at hbeyond ⊢
    exact hbeyond.imp .inl .inl

end Erasure

/-- `u` is `t` with the area erased, and nothing else differs. -/
structure Terminal.Erased (t : Terminal) (area : Area) (u : Terminal) : Prop
    extends t.Redrawn u where
  cell_eq : ∀ x y, x < t.width → y < t.height →
    u.live.cell x y = if area.cell x y then .blank else t.live.cell x y
  lineSize_eq : ∀ y, y < t.height →
    u.live.lineSize y = if area.row y then .single else t.live.lineSize y

namespace Terminal

variable {t u v : Terminal} {a b : Area}

namespace Erased

theorem congr (h : t.Erased a u)
    (hcell : ∀ x y, x < t.width → y < t.height → a.cell x y = b.cell x y)
    (hrow : ∀ y, y < t.height → a.row y = b.row y) : t.Erased b u where
  toRedrawn := h.toRedrawn
  cell_eq x y hx hy := by rw [h.cell_eq x y hx hy, hcell x y hx hy]
  lineSize_eq y hy := by rw [h.lineSize_eq y hy, hrow y hy]

/-- An area is erased in one way only. -/
theorem eq (h : t.Erased a u) (h' : t.Erased a v) : u = v := by
  refine h.eq_of_live_eq h'.toRedrawn (Grid.ext_cells h.fits h'.fits ?_ ?_)
  · intro x y hx hy
    rw [h.cell_eq x y hx hy, h'.cell_eq x y hx hy]
  · intro y hy
    rw [h.lineSize_eq y hy, h'.lineSize_eq y hy]

theorem trans (h : t.Erased a u) (h' : u.Erased b v) : t.Erased (a.join b) v where
  toRedrawn := h.toRedrawn.trans h'.toRedrawn
  cell_eq x y hx hy := by
    rw [h'.cell_eq x y (h.width ▸ hx) (h.height ▸ hy), h.cell_eq x y hx hy, Area.cell_join]
    cases a.cell x y <;> cases b.cell x y <;> rfl
  lineSize_eq y hy := by
    rw [h'.lineSize_eq y (h.height ▸ hy), h.lineSize_eq y hy, Area.row_join]
    cases a.row y <;> cases b.row y <;> rfl

end Erased

theorem blankColumns_erased (h : t.WellFormed) (first : Nat) {last : Nat} (hl : last < t.width) :
    t.Erased (.columns t.cursor.y first last) (t.blankColumns first last).terminal := by
  have hy := (Fits.cursor h).2
  rw [blankColumns, telling_terminal]
  exact {
    toRedrawn := .of_edit ((Fits.live h).blankSpan hl hy)
    cell_eq := fun x y hx _ => by
      rw [editLive_live, Grid.cell_blankSpan (Fits.live h) hl hy hx]
      simp only [Area.columns, Bool.and_eq_true, beq_iff_eq, decide_eq_true_eq]
    lineSize_eq := fun y _ => by
      rw [editLive_live]
      exact Grid.lineSize_blankSpan .. }

theorem blankRows_erased (h : t.WellFormed) (first : Nat) {stop : Nat} (hs : stop ≤ t.height)
    (order : List Nat → List Nat) :
    t.Erased (.rows first stop) (t.blankRows first stop order).terminal := by
  rw [blankRows, telling_terminal]
  exact {
    toRedrawn := .of_edit ((Fits.live h).blankRows hs)
    cell_eq := fun x y hx _ => by
      rw [editLive_live, Grid.cell_blankRows (Fits.live h) hs hx]
      simp only [Area.rows, Bool.and_eq_true, decide_eq_true_eq]
    lineSize_eq := fun y _ => by
      rw [editLive_live, Grid.lineSize_blankRows (Fits.live h) hs]
      simp only [Area.rows, Bool.and_eq_true, decide_eq_true_eq] }

theorem eraseInLine_erased (h : t.WellFormed) (scope : EraseScope) :
    t.Erased ((Erasure.inLine scope).area t) (t.eraseInLine scope).terminal := by
  have hlast := Fits.lastColumn_lt h
  have hwithin : ∀ x, x < t.width → x ≤ t.lastColumn := fun x hx => Nat.le_pred_of_lt hx
  cases scope with
  | toStart =>
      refine (blankColumns_erased h 0 (Fits.column_lt h)).congr (fun x y _ _ => ?_) fun _ _ => rfl
      simp only [Area.columns, Erasure.area, EraseScope.reaches_toStart, Nat.zero_le, decide_true,
        Bool.true_and]
  | toEnd =>
      refine (blankColumns_erased h t.column hlast).congr (fun x y hx _ => ?_) fun _ _ => rfl
      simp only [Area.columns, Erasure.area, EraseScope.reaches_toEnd, hwithin x hx, decide_true,
        Bool.and_true]
  | whole =>
      refine (blankColumns_erased h 0 hlast).congr (fun x y hx _ => ?_) fun _ _ => rfl
      simp only [Area.columns, Erasure.area, EraseScope.reaches_whole, hwithin x hx, Nat.zero_le,
        decide_true, Bool.and_true]

theorem eraseInDisplay_erased (h : t.WellFormed) (scope : EraseScope) :
    t.Erased ((Erasure.inDisplay scope).area t) (t.eraseInDisplay scope).terminal := by
  have hline := eraseInLine_erased h scope
  have hu := hline.wellFormed h
  cases scope with
  | toStart =>
      have hrow : t.cursor.y ≤ (t.eraseInLine .toStart).terminal.height :=
        hline.height ▸ Nat.le_of_lt (Fits.cursor h).2
      refine (hline.trans (blankRows_erased hu 0 hrow List.reverse)).congr (fun x y _ _ => ?_)
        fun y _ => ?_
      · simp only [Area.cell_join, Area.rows, Erasure.area, EraseScope.beyond, Nat.zero_le,
          decide_true, Bool.true_and, Bool.or_comm]
      · simp only [Area.row_join, Area.rows, Erasure.area, EraseScope.beyond, Nat.zero_le,
          decide_true, Bool.true_and, Bool.false_or]
  | toEnd =>
      refine (hline.trans (blankRows_erased hu (t.cursor.y + 1) (Nat.le_refl _) id)).congr
        (fun x y _ hy => ?_) fun y hy => ?_
      · simp only [Area.cell_join, Area.rows, Erasure.area, EraseScope.beyond, hline.height, hy,
          decide_true, Bool.and_true, Bool.or_comm, Nat.succ_le_iff]
      · simp only [Area.row_join, Area.rows, Erasure.area, EraseScope.beyond, hline.height, hy,
          decide_true, Bool.and_true, Bool.false_or, Nat.succ_le_iff]
  | whole =>
      refine (blankRows_erased h 0 (Nat.le_refl _) id).congr (fun x y _ hy => ?_) fun y hy => ?_
      · simp only [Area.rows, Erasure.area, EraseScope.beyond, hy, Nat.zero_le, decide_true,
          Bool.and_true, Bool.true_or]
      · simp only [Area.rows, Erasure.area, EraseScope.beyond, hy, Nat.zero_le, decide_true,
          Bool.and_true]

theorem eraseChars_erased (h : t.WellFormed) (count : Nat) :
    t.Erased ((Erasure.chars count).area t) (t.eraseChars count).terminal :=
  blankColumns_erased h _ (Nat.lt_of_le_of_lt (Nat.min_le_right ..) (Fits.lastColumn_lt h))

theorem obey_erased (h : t.WellFormed) (e : Erasure) :
    t.Erased (e.area t) (t.obey e.command).terminal := by
  cases e with
  | inLine scope => exact eraseInLine_erased h scope
  | inDisplay scope => exact eraseInDisplay_erased h scope
  | chars count => exact eraseChars_erased h count

/-- The cursor stays, so the second erasure is where it would have been at first. -/
theorem obey_obey_erased (h : t.WellFormed) (e e' : Erasure) :
    t.Erased ((e.area t).join (e'.area t))
      ((t.obey e.command).terminal.obey e'.command).terminal := by
  have hu := obey_erased h e
  have hv := obey_erased (hu.wellFormed h) e'
  rw [e'.area_of_redrawn hu.toRedrawn] at hv
  exact hu.trans hv

/-- Erasing blanks its area and nothing else, and once is enough. Erasing to the end and to the
start, in either order, is erasing the whole line, and blanks the cells of the whole display. -/
theorem erasing_is_exact (h : t.WellFormed) :
    (∀ e : Erasure, t.Erased (e.area t) (t.obey e.command).terminal ∧
      ((t.obey e.command).terminal.obey e.command).terminal = (t.obey e.command).terminal) ∧
    ∀ first second : EraseScope, [first, second].Perm [.toEnd, .toStart] →
      ((t.obey (.eraseInLine first)).terminal.obey (.eraseInLine second)).terminal =
        (t.obey (.eraseInLine .whole)).terminal ∧
      ∀ x y, x < t.width → y < t.height →
        ((t.obey (.eraseInDisplay first)).terminal.obey
          (.eraseInDisplay second)).terminal.live.cell x y =
        (t.obey (.eraseInDisplay .whole)).terminal.live.cell x y := by
  refine ⟨fun e => ⟨obey_erased h e, ?_⟩, fun first second hs => ⟨?_, fun x y hx hy => ?_⟩⟩
  · have htwice := obey_obey_erased h e e
    rw [Area.join_self] at htwice
    exact htwice.eq (obey_erased h e)
  · have hboth := obey_obey_erased h (.inLine first) (.inLine second)
    refine hboth.eq ((obey_erased h (.inLine .whole)).congr (fun x y _ _ => ?_) fun _ _ => rfl)
    simp only [Area.cell_join, Erasure.area, EraseScope.reaches_whole, ← Bool.and_or_distrib_left,
      EraseScope.reaches_or_reaches hs]
  · have hboth := obey_obey_erased h (.inDisplay first) (.inDisplay second)
    have hwhole := obey_erased h (.inDisplay .whole)
    calc _ = Cell.blank :=
          (hboth.cell_eq x y hx hy).trans (if_pos (Erasure.displays_join hs t x y))
      _ = _ := (hwhole.cell_eq x y hx hy).symm

/-- The middle one of three wide rows, with a wrap pending and a reversed pen. -/
theorem erasing_with_wrap_pending :
    let t := (obeyAll [.print "abc", .lineSize { width := .double }, .goto 3 1, .print "ghi",
      .lineSize { width := .double }, .goto 2 1, .lineSize { width := .double }, .attribute 7,
      .print "def"] (initial 3 3 1)).terminal
    t.cursor.x = t.width ∧ t.cursor.pen ≠ .plain ∧
      (∀ e : Erasure, t.Erased (e.area t) (t.obey e.command).terminal ∧
        ((t.obey e.command).terminal.obey e.command).terminal = (t.obey e.command).terminal) ∧
      ((t.obey (.eraseInLine .toStart)).terminal.obey (.eraseInLine .toEnd)).terminal =
        (t.obey (.eraseInLine .whole)).terminal ∧
      ∀ x y, x < t.width → y < t.height →
        ((t.obey (.eraseInDisplay .toStart)).terminal.obey
          (.eraseInDisplay .toEnd)).terminal.live.cell x y =
        (t.obey (.eraseInDisplay .whole)).terminal.live.cell x y := by
  intro t
  have hr : Reachable t :=
    each_keeps (fun c _ ht => .obey ht c) _
      (.create (show 3 * 3 ≤ Stored.wordLimit by decide) rfl)
  obtain ⟨heach, hboth⟩ := erasing_is_exact hr.wellFormed
  exact ⟨rfl, by decide, heach, hboth .toStart .toEnd (by decide)⟩

end Terminal

end TermReplay

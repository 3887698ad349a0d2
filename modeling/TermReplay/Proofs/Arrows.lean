import TermReplay.Proofs.DrawnAndMoved
import TermReplay.Proofs.Erasing
import TermReplay.Proofs.ScrollRegion

/-!
Arrows. An arrow stops at the bounds of where the cursor may be moved to. From a row that is past
a bound already it goes to the bound all the same, which is the wrong way. Only a cursor that is
brought back can be in such a row: every other command leaves the cursor between the bounds.
-/

namespace TermReplay

/-- The arrow leads no way but its own. -/
def Direction.KeptBy (direction : Direction) (t : Terminal) (count : Nat) : Prop :=
  let after := (t.obey (.arrow direction count)).terminal
  match direction with
  | .up => after.cursor.y ≤ t.cursor.y ∧ after.cursor.x = t.cursor.x
  | .down => t.cursor.y ≤ after.cursor.y ∧ after.cursor.x = t.cursor.x
  | .left => after.cursor.x ≤ t.cursor.x ∧ after.cursor.y = t.cursor.y
  | .right => t.column ≤ after.column ∧ after.cursor.y = t.cursor.y

/-- The cursor is not past the bound that the arrow stops at. Columns are never out of bounds. -/
def Direction.InFront (direction : Direction) (t : Terminal) : Prop :=
  match direction with
  | .up => t.rowBounds.1 ≤ t.cursor.y
  | .down => t.cursor.y ≤ t.rowBounds.2
  | .left | .right => True

def Terminal.InBounds (t : Terminal) : Prop :=
  t.rowBounds.1 ≤ t.cursor.y ∧ t.cursor.y ≤ t.rowBounds.2

theorem Direction.keptBy_iff (direction : Direction) (t : Terminal) (count : Nat) :
    direction.KeptBy t count ↔ direction.InFront t := by
  cases direction with
  | up =>
      show max (t.cursor.y - count) t.rowBounds.1 ≤ t.cursor.y ∧ t.cursor.x = t.cursor.x ↔
        t.rowBounds.1 ≤ t.cursor.y
      omega
  | down =>
      show t.cursor.y ≤ min (t.cursor.y + count) t.rowBounds.2 ∧ t.cursor.x = t.cursor.x ↔
        t.cursor.y ≤ t.rowBounds.2
      omega
  | left => exact iff_of_true ⟨Nat.sub_le .., rfl⟩ trivial
  | right =>
      have hcolumn : t.column ≤ min (min (t.cursor.x + count) t.lastColumn) t.lastColumn := by
        rw [Terminal.column]
        omega
      exact iff_of_true ⟨hcolumn, rfl⟩ trivial

namespace Terminal

variable {t : Terminal}

theorem InBounds.inFront (h : t.InBounds) (direction : Direction) : direction.InFront t := by
  cases direction with
  | up => exact h.1
  | down => exact h.2
  | left | right => trivial

theorem inBounds_of_screen (h : t.WellFormed) (ho : t.modes.origin = .screen) : t.InBounds := by
  simp only [InBounds, rowBounds, ho]
  exact ⟨Nat.zero_le _, Nat.le_sub_one_of_lt (Fits.cursor h).2⟩

theorem inBounds_iff_of_margin (ho : t.modes.origin = .margin) :
    t.InBounds ↔ t.margins.Has t.cursor.y := by
  simp only [InBounds, rowBounds, ho]
  exact Iff.rfl

theorem goto_inBounds (hm : t.margins.top ≤ t.margins.bottom) (x y : Nat) :
    (t.goto x y).terminal.InBounds := by
  have hbounds : (t.goto x y).terminal.rowBounds = t.rowBounds := rfl
  rw [InBounds, hbounds]
  cases ho : t.modes.origin with
  | screen =>
      simp only [goto, rowBounds, ho]
      exact ⟨Nat.zero_le _, Nat.min_le_right ..⟩
  | margin =>
      have hrow : t.margins.top ≤ min (y + t.margins.top) t.margins.bottom := by omega
      simp only [goto, rowBounds, ho]
      exact ⟨hrow, Nat.min_le_right ..⟩

theorem alignScreen_inBounds (t : Terminal) : t.alignScreen.terminal.InBounds := by
  have hrow : t.alignScreen.terminal.cursor.y = 0 := rfl
  have hfirst : t.alignScreen.terminal.rowBounds.1 = 0 := by
    rw [rowBounds]
    split <;> rfl
  rw [InBounds, hrow, hfirst]
  exact ⟨Nat.le_refl 0, Nat.zero_le _⟩

theorem changeMode_origin (t : Terminal) (change : ModeChange) :
    (t.changeMode change).terminal.modes.origin = t.modes.origin := by
  cases change <;> rfl

theorem applyAttribute_origin (t : Terminal) (code : Nat) :
    (t.applyAttribute code).terminal.modes.origin = t.modes.origin := by
  rw [applyAttribute]
  split <;> rfl

theorem restoreCursor_origin (t : Terminal) :
    t.restoreCursor.terminal.modes.origin = t.modes.origin := by
  rw [restoreCursor]
  split <;> rfl

theorem alignScreen_origin (t : Terminal) :
    t.alignScreen.terminal.modes.origin = t.modes.origin :=
  congrArg Modes.origin (editLive_modes t (·.fill 'E'))

/-- Three commands set the origin. -/
theorem obey_origin (t : Terminal) {c : Command} (ho : ∀ origin, c ≠ .origin origin)
    (hsoft : c ≠ .softReset) (hreset : c ≠ .reset) :
    (t.obey c).terminal.modes.origin = t.modes.origin := by
  by_cases hc : c.drawsAndMoves = true
  · rw [(obey_drawnAndMoved t hc).modes]
  · cases c with
    | origin origin => exact absurd rfl (ho origin)
    | softReset => exact absurd rfl hsoft
    | reset => exact absurd rfl hreset
    | mode change => exact changeMode_origin t change
    | «attribute» code => exact applyAttribute_origin t code
    | restoreCursor => exact restoreCursor_origin t
    | screenAlignment => exact alignScreen_origin t
    | _ => first | rfl | exact absurd rfl hc

theorem rowBounds_of_redrawn {u : Terminal} (h : t.Redrawn u) : u.rowBounds = t.rowBounds := by
  rw [← h.rest, rowBounds, rowBounds, editLive_modes, editLive_margins, lastRow, editLive_height,
    lastRow]

/-- Whatever moves the margins or the origin or works on the whole screen, short of bringing a
cursor back. -/
theorem obey_inBounds_of_leavesRegion (hb : t.InBounds) (h : t.WellFormed) {c : Command}
    (hleaves : c.leavesRegion = true) (hc : c ≠ .restoreCursor) :
    (t.obey c).terminal.InBounds := by
  have hinside (top bottom : Option Nat) : (marginsFor t.height top bottom).top ≤
      (marginsFor t.height top bottom).bottom :=
    Nat.le_of_lt (marginsFor_inside (Fits.two_rows h) top bottom).1
  cases c with
  | origin origin =>
      exact goto_inBounds (t := { t with modes := { t.modes with origin } })
        (Nat.le_of_lt (Fits.margins h).1) 0 0
  | margins top bottom =>
      exact goto_inBounds (t := { t with margins := marginsFor t.height top bottom })
        (hinside top bottom) 0 0
  | resetMargins =>
      exact goto_inBounds (t := { t with margins := marginsFor t.height none none })
        (hinside none none) 0 0
  | eraseInDisplay scope =>
      have hdrawn := (eraseInDisplay_erased h scope).toRedrawn
      show (t.eraseInDisplay scope).terminal.InBounds
      rwa [InBounds, rowBounds_of_redrawn hdrawn, hdrawn.cursor]
  | softReset => exact inBounds_of_screen (h.obey .softReset) rfl
  | reset => exact inBounds_of_screen (h.obey .reset) rfl
  | screenAlignment => exact alignScreen_inBounds t
  | restoreCursor => exact absurd rfl hc
  | _ => cases hleaves

/-- Whatever does not bring a cursor back leaves the cursor where it may be moved to. -/
theorem InBounds.obey (hb : t.InBounds) (h : t.WellFormed) {c : Command}
    (hc : c ≠ .restoreCursor) : (t.obey c).terminal.InBounds := by
  cases hleaves : c.leavesRegion with
  | true => exact obey_inBounds_of_leavesRegion hb h hleaves hc
  | false =>
      have horigin : (t.obey c).terminal.modes.origin = t.modes.origin := by
        apply obey_origin
        · rintro origin rfl
          cases hleaves
        · rintro rfl
          cases hleaves
        · rintro rfl
          cases hleaves
      cases ho : t.modes.origin with
      | screen => exact inBounds_of_screen (h.obey c) (horigin.trans ho)
      | margin =>
          have hconfined : t.Confined t.margins :=
            ⟨ho, rfl, Nat.le_pred_of_lt (Fits.margins h).2, (inBounds_iff_of_margin ho).mp hb⟩
          have hafter := hconfined.obey hleaves
          rw [inBounds_iff_of_margin hafter.origin, hafter.margins]
          exact hafter.row

/-- Only a cursor that is brought back can stand in a row that it may not be moved to. -/
theorem InBounds.obeyAll (hb : t.InBounds) (h : t.WellFormed) {commands : List Command}
    (hc : .restoreCursor ∉ commands) : (obeyAll commands t).terminal.InBounds := by
  induction commands generalizing t with
  | nil => exact hb
  | cons c commands ih =>
      obtain ⟨hfirst, hrest⟩ := not_or.mp (mt List.mem_cons.mpr hc)
      exact ih (hb.obey h (Ne.symm hfirst)) (h.obey c) hrest

/-- An arrow leads no way but its own, and changes one coordinate only, exactly from a row that is
not past the bound it stops at; left and right arrows always do. A cursor in bounds stays there
over any run that brings no saved cursor back, so that all the while every arrow does. -/
theorem arrows_keep_direction_iff (h : Reachable t) :
    (∀ (direction : Direction) (count : Nat),
      direction.KeptBy t count ↔ direction.InFront t) ∧
      (t.InBounds → ∀ commands : List Command, .restoreCursor ∉ commands →
        ∀ (direction : Direction) (count : Nat),
          direction.KeptBy (obeyAll commands t).terminal count) := by
  refine ⟨fun direction count => direction.keptBy_iff t count, ?_⟩
  intro hb commands hc direction count
  have hafter := hb.obeyAll h.wellFormed hc
  exact (direction.keptBy_iff _ count).mpr (hafter.inFront direction)

/-- A cursor saved above the region and brought back: the arrow down keeps its direction there,
the arrow up does not, and after a line feed both do. -/
theorem arrows_keep_direction_below_restored_row :
    let t := (obeyAll [.saveCursor, .margins (some 2) (some 3), .origin .margin, .restoreCursor]
      (initial 4 4 1)).terminal
    let u := (t.obey .lineFeed).terminal
    ¬Direction.InFront .up t ∧
      (∀ count, Direction.KeptBy .down t count) ∧
      u.InBounds ∧
      ∀ commands : List Command, .restoreCursor ∉ commands →
        ∀ (direction : Direction) (count : Nat),
          direction.KeptBy (obeyAll commands u).terminal count := by
  intro t u
  have ht : Reachable t :=
    each_keeps (fun c _ ht => .obey ht c) _
      (.create (show 4 * 4 ≤ Stored.wordLimit by decide) rfl)
  have hb : u.InBounds := by
    constructor <;> decide
  have hup : ¬Direction.InFront .up t := by
    show ¬t.rowBounds.1 ≤ t.cursor.y
    decide
  have hdown : Direction.InFront .down t := by
    show t.cursor.y ≤ t.rowBounds.2
    decide
  exact ⟨hup, fun count => ((arrows_keep_direction_iff ht).1 .down count).mpr hdown, hb,
    (arrows_keep_direction_iff (ht.obey .lineFeed)).2 hb⟩

/-- There is a run to a state in which the arrow up moves the cursor down. -/
theorem arrow_up_moves_down :
    let t := (obeyAll [.saveCursor, .margins (some 2) (some 3), .origin .margin, .restoreCursor]
      (initial 4 4 1)).terminal
    Reachable t ∧ t.cursor.y = 0 ∧ (t.obey (.arrow .up 1)).terminal.cursor.y = 1 ∧
      ¬∀ t : Terminal, Reachable t →
        ∀ (direction : Direction) (count : Nat), direction.KeptBy t count := by
  intro t
  have ht : Reachable t :=
    each_keeps (fun c _ ht => .obey ht c) _
      (.create (show 4 * 4 ≤ Stored.wordLimit by decide) rfl)
  have hbefore : t.cursor.y = 0 := by decide
  have hafter : (t.obey (.arrow .up 1)).terminal.cursor.y = 1 := by decide
  refine ⟨ht, hbefore, hafter, fun hkept => ?_⟩
  have hup : (t.obey (.arrow .up 1)).terminal.cursor.y ≤ t.cursor.y := (hkept t ht .up 1).1
  omega

end Terminal

end TermReplay

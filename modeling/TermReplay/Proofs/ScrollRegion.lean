import TermReplay.Proofs.FullScreen
import TermReplay.Proofs.Reachability

/-!
The scroll region under the margin origin. With the cursor in the region, commands keep it there
and tell of changes to rows of the region only, unless they move the margins or the origin, bring
a saved cursor back, or work on the whole screen. As every change is told, the rows outside stay.
-/

namespace TermReplay

def Margins.Has (m : Margins) (y : Nat) : Prop := m.top ≤ y ∧ y ≤ m.bottom

instance (m : Margins) (y : Nat) : Decidable (m.Has y) :=
  inferInstanceAs (Decidable (m.top ≤ y ∧ y ≤ m.bottom))

/-- The cursor is in the region, and rows are addressed from there. -/
structure Terminal.Confined (t : Terminal) (region : Margins) : Prop where
  origin : t.modes.origin = .margin
  margins : t.margins = region
  bottom_le : region.bottom ≤ t.lastRow
  row : region.Has t.cursor.y

/-- What is told of changes is of rows in the region. -/
def Margins.Tells (region : Margins) (notices : List Notice) : Prop :=
  ∀ row, ToldRow notices row → region.Has row

structure Reaction.Confined (r : Reaction) (region : Margins) : Prop where
  terminal : r.terminal.Confined region
  told : region.Tells r.notices

namespace Margins.Tells

variable {region : Margins}

theorem nil : region.Tells [] := by
  rintro row ⟨first, last, hn⟩
  cases hn

theorem other {n : Notice} (h : n.isChange = false) : region.Tells [n] := by
  rintro row ⟨first, last, hn⟩
  cases List.mem_singleton.mp hn
  cases h

theorem change {row first last : Nat} (h : region.Has row) :
    region.Tells [.change row first last] := by
  rintro row' ⟨first', last', hn⟩
  cases List.mem_singleton.mp hn
  exact h

theorem append {xs ys : List Notice} (hx : region.Tells xs) (hy : region.Tells ys) :
    region.Tells (xs ++ ys) := by
  rintro row ⟨first, last, hn⟩
  obtain hn | hn := List.mem_append.mp hn
  · exact hx row ⟨first, last, hn⟩
  · exact hy row ⟨first, last, hn⟩

theorem wholeRows {t : Terminal} {rows : List Nat} (h : ∀ y ∈ rows, region.Has y) :
    region.Tells (t.wholeRows rows) := by
  rintro row ⟨first, last, hn⟩
  exact h row (Terminal.mem_wholeRows.mp hn).1

end Margins.Tells

namespace Reaction.Confined

variable {region : Margins}

theorem andThen {r : Reaction} {f : Terminal → Reaction} (hr : r.Confined region)
    (hf : (f r.terminal).Confined region) : (r.andThen f).Confined region :=
  ⟨hf.terminal, hr.told.append hf.told⟩

theorem each {α : Type} {f : α → Terminal → Reaction}
    (step : ∀ x t, t.Confined region → (f x t).Confined region) (xs : List α) {t : Terminal}
    (h : t.Confined region) : (Terminal.each f xs t).Confined region := by
  induction xs generalizing t with
  | nil => exact ⟨h, .nil⟩
  | cons x xs ih =>
      have hx := step x t h
      exact hx.andThen (ih hx.terminal)

end Reaction.Confined

namespace Terminal

namespace Confined

variable {t : Terminal} {region : Margins}

theorem quietly (h : t.Confined region) : t.quietly.Confined region := ⟨h, .nil⟩

theorem tellingCursor (h : t.Confined region) : t.tellingCursor.Confined region :=
  ⟨h, .other rfl⟩

theorem warning (h : t.Confined region) (message : String) :
    (t.warning message).Confined region :=
  ⟨h, .other rfl⟩

theorem moveTo (h : t.Confined region) {x y : Nat} (hy : region.Has y) :
    (t.moveTo x y).Confined region :=
  { h with row := hy }

theorem editLive (h : t.Confined region) (f : Grid → Grid) :
    (t.editLive f).Confined region where
  origin := by rw [editLive_modes, h.origin]
  margins := by rw [editLive_margins, h.margins]
  bottom_le := by rw [lastRow, editLive_height]; exact h.bottom_le
  row := by rw [editLive_cursor]; exact h.row

theorem edit (h : t.Confined region) (f : Grid → Grid) {notices : List Notice}
    (hn : region.Tells notices) : ((t.editLive f).telling notices).Confined region :=
  ⟨h.editLive f, hn⟩

theorem goto (h : t.Confined region) (x y : Nat) : (t.goto x y).Confined region := by
  obtain ⟨htop, hbottom⟩ := h.row
  simp only [Terminal.goto, h.origin, h.margins]
  refine (h.moveTo ?_).tellingCursor
  constructor <;> omega

theorem arrow (h : t.Confined region) (direction : Direction) (count : Nat) :
    (t.arrow direction count).Confined region := by
  obtain ⟨htop, hbottom⟩ := h.row
  have hbounds : t.rowBounds = (region.top, region.bottom) := by
    rw [rowBounds, h.origin, h.margins]
  simp only [Terminal.arrow, hbounds]
  cases direction with
  | up =>
      refine (h.moveTo ?_).tellingCursor
      constructor <;> omega
  | down =>
      refine (h.moveTo ?_).tellingCursor
      constructor <;> omega
  | left => exact (h.moveTo h.row).tellingCursor
  | right => exact (h.moveTo h.row).tellingCursor

theorem cycleRows (h : t.Confined region) (remove insert : Nat) (direction : Int)
    (count : Nat) : (cycleRows remove insert direction count t).Confined region := by
  induction count generalizing t with
  | zero => exact h.quietly
  | succ count ih =>
      have hstep : ((t.editLive (·.cycleRows remove insert)).telling
          [.scrolled (t.live.rowImage remove) direction]).Confined region :=
        h.edit _ (.other rfl)
      exact hstep.andThen (ih hstep.terminal)

theorem tellingRegion (h : t.Confined region) : t.tellingRegion.Confined region := by
  refine ⟨h, .wholeRows fun y hy => ?_⟩
  rw [mem_rowsUpTo, h.margins] at hy
  exact ⟨hy.1, Nat.le_of_lt_succ hy.2⟩

theorem scrollUp (h : t.Confined region) (count : Nat) : (t.scrollUp count).Confined region := by
  rw [Terminal.scrollUp]
  split
  · exact h.quietly
  · have hc := h.cycleRows t.margins.top t.margins.bottom 1 (min count t.regionHeight)
    exact hc.andThen hc.terminal.tellingRegion

theorem scrollDown (h : t.Confined region) (count : Nat) :
    (t.scrollDown count).Confined region := by
  rw [Terminal.scrollDown]
  split
  · exact h.quietly
  · have hc := h.cycleRows t.margins.bottom t.margins.top (-1) (min count t.regionHeight)
    exact hc.andThen hc.terminal.tellingRegion

/-- Above the bottom of the region there is a row of the region to move down to. -/
theorem below (h : t.Confined region) (hy : t.cursor.y ≠ t.margins.bottom) :
    region.Has (t.cursor.y + 1) := by
  obtain ⟨htop, hbottom⟩ := h.row
  rw [h.margins] at hy
  constructor <;> omega

theorem limitRow (h : t.Confined region) : t.limitRow.Confined region := by
  obtain ⟨htop, hbottom⟩ := h.row
  have hlast := h.bottom_le
  refine h.moveTo ?_
  split
  · rw [lastRow] at hlast ⊢
    constructor <;> omega
  · exact h.row

theorem advanceLine (h : t.Confined region) : t.advanceLine.Confined region := by
  have hdown : Reaction.Confined
      (if t.cursor.y = t.margins.bottom then t.scrollUp 1
        else (t.moveTo t.cursor.x (t.cursor.y + 1)).quietly) region := by
    split
    · exact h.scrollUp 1
    · next hy => exact (h.moveTo (h.below hy)).quietly
  rw [advanceLine_eq]
  exact hdown.andThen hdown.terminal.limitRow.quietly

theorem index (h : t.Confined region) : t.index.Confined region := by
  rw [Terminal.index]
  split
  · exact h.scrollUp 1
  · next hy =>
      split
      · exact (h.moveTo (h.below hy)).tellingCursor
      · exact h.quietly

theorem reverseIndex (h : t.Confined region) : t.reverseIndex.Confined region := by
  obtain ⟨htop, hbottom⟩ := h.row
  rw [Terminal.reverseIndex]
  split
  · exact h.scrollDown 1
  · next hy =>
      rw [h.margins] at hy
      split
      · refine (h.moveTo ?_).tellingCursor
        constructor <;> omega
      · exact h.quietly

theorem returnCarriage (h : t.Confined region) : t.returnCarriage.Confined region :=
  (h.moveTo h.row).tellingCursor

theorem nextLine (h : t.Confined region) : t.nextLine.Confined region :=
  h.index.andThen h.index.terminal.returnCarriage

theorem lineFeed (h : t.Confined region) : t.lineFeed.Confined region := by
  refine h.advanceLine.andThen ?_
  split
  · exact h.advanceLine.terminal.tellingCursor
  · exact h.advanceLine.terminal.returnCarriage

theorem settleWrap (h : t.Confined region) : t.settleWrap.Confined region := by
  rw [Terminal.settleWrap]
  split
  · split
    · exact (h.moveTo h.row : (t.moveTo 0 t.cursor.y).Confined region).advanceLine
    · exact (h.moveTo h.row).quietly
  · exact h.quietly

theorem place (h : t.Confined region) (char : Char) : (t.place char).Confined region := by
  simp only [Terminal.place]
  split
  · refine Reaction.Confined.andThen (h.edit _ (.change h.row)) ?_
    exact ((h.editLive _).moveTo h.row).tellingCursor
  · refine Reaction.Confined.andThen (h.edit _ (.change h.row)) ?_
    exact ((h.editLive _).moveTo h.row).tellingCursor

theorem printChar (h : t.Confined region) (char : Char) :
    (Terminal.printChar char t).Confined region := by
  simp only [Terminal.printChar]
  refine h.settleWrap.andThen ?_
  exact h.settleWrap.terminal.place _

theorem print (h : t.Confined region) (text : String) : (t.print text).Confined region :=
  Reaction.Confined.each (fun char _ ht => ht.printChar char) text.toList h

theorem blankColumns (h : t.Confined region) (first last : Nat) :
    (t.blankColumns first last).Confined region :=
  h.edit _ (.change h.row)

theorem eraseInLine (h : t.Confined region) (scope : EraseScope) :
    (t.eraseInLine scope).Confined region := by
  cases scope <;> exact h.blankColumns _ _

theorem editRest (h : t.Confined region) (f : Grid → Grid) :
    (t.editLive f).tellingRest.Confined region :=
  ⟨h.editLive f, .change (h.editLive f).row⟩

theorem editLines (h : t.Confined region) (count : Nat) (f : Nat → Nat → Grid → Grid) :
    (t.editLines count f).Confined region := by
  simp only [Terminal.editLines]
  split
  · exact h.quietly
  · refine h.edit _ (.wholeRows fun y hy => ?_)
    rw [mem_rowsUpTo, h.margins] at hy
    exact ⟨Nat.le_trans h.row.1 hy.1, Nat.le_of_lt_succ hy.2⟩

theorem setLineSize (h : t.Confined region) (size : LineSize) :
    (t.setLineSize size).Confined region :=
  h.edit _ (.wholeRows fun _ hy => List.mem_singleton.mp hy ▸ h.row)

theorem applyAttribute (h : t.Confined region) (code : Nat) :
    (t.applyAttribute code).Confined region := by
  rw [Terminal.applyAttribute]
  split
  · next c hc =>
      have hy : c.y = t.cursor.y := (applyAttribute_position hc).2
      have hcursor : { t with cursor := c }.Confined region :=
        { h with row := by rw [hy]; exact h.row }
      exact hcursor.quietly
  · exact h.warning _

theorem changeMode (h : t.Confined region) {change : ModeChange}
    (hc : ∀ kind, change ≠ .screen kind) : (t.changeMode change).Confined region := by
  cases hm : t.modes.store? change with
  | none =>
      rw [changeMode_of_none hc hm]
      exact h.warning _
  | some modes =>
      have horigin : modes.origin = t.modes.origin := by
        cases change <;> cases hm <;> rfl
      have hmodes : { t with modes }.Confined region :=
        { h with origin := horigin.trans h.origin }
      rw [changeMode_of_some hm]
      exact ⟨hmodes, .other rfl⟩

end Confined

end Terminal

/-- Commands that move the margins or the origin, bring a cursor back, or work on the whole
screen. -/
def Command.leavesRegion : Command → Bool
  | .origin _ | .margins .. | .resetMargins | .restoreCursor | .eraseInDisplay _ => true
  | .softReset | .reset | .screenAlignment => true
  | _ => false

namespace Terminal

variable {t : Terminal} {region : Margins}

/-- Switching the screen tells of every row, so it is not among these. -/
theorem Confined.obey_told (h : t.Confined region) {c : Command} (hc : c.leavesRegion = false)
    (hswitch : ∀ kind, c ≠ .mode (.screen kind)) : (t.obey c).Confined region := by
  cases c with
  | origin _ | margins _ _ | resetMargins | restoreCursor | eraseInDisplay _ => cases hc
  | softReset | reset | screenAlignment => cases hc
  | bell | singleShift _ _ | report _ => exact ⟨h, .other rfl⟩
  | backspace | tab | gotoColumn _ => exact (h.moveTo h.row).tellingCursor
  | carriageReturn => exact h.returnCarriage
  | lineFeed | verticalTab | formFeed => exact h.lineFeed
  | useSlot _ | designate _ _ | saveCursor => exact ⟨{ h with }, .nil⟩
  | setTab | clearTab | clearAllTabs => exact ⟨{ h with }, .nil⟩
  | ledsOff | led _ | selfTest _ => exact ⟨{ h with }, .nil⟩
  | print text => exact h.print text
  | arrow direction count => exact h.arrow direction count
  | home | goto _ _ | gotoRow _ => exact h.goto _ _
  | index => exact h.index
  | reverseIndex => exact h.reverseIndex
  | nextLine => exact h.nextLine
  | mode change => exact h.changeMode fun kind hk => hswitch kind (congrArg _ hk)
  | lineSize size => exact h.setLineSize size
  | eraseInLine scope => exact h.eraseInLine scope
  | deleteChars _ | insertChars _ => exact h.editRest _
  | eraseChars count => exact h.blankColumns _ _
  | insertLines count => exact h.editLines count fun y bottom g => g.cycleRows bottom y
  | deleteLines count => exact h.editLines count fun y bottom g => g.cycleRows y bottom
  | scrollUp count => exact h.scrollUp count
  | scrollDown count => exact h.scrollDown count
  | windowTitle _ | iconTitle _ => exact ⟨{ h with }, .other rfl⟩
  | bothTitles title =>
      have hwindow : (t.setWindowTitle title).Confined region := ⟨{ h with }, .other rfl⟩
      show ((t.setWindowTitle title).andThen (·.setIconTitle title)).Confined region
      exact hwindow.andThen ⟨{ hwindow.terminal with }, .other rfl⟩
  | «attribute» code => exact h.applyAttribute code

/-- A command that does not lead out of the region leaves the cursor in it and tells of nothing
outside. -/
theorem Confined.obey (h : t.Confined region) {c : Command} (hc : c.leavesRegion = false) :
    (t.obey c).terminal.Confined region := by
  by_cases hswitch : ∃ kind, c = .mode (.screen kind)
  · obtain ⟨kind, rfl⟩ := hswitch
    exact { h with }
  · exact (h.obey_told hc fun kind hk => hswitch ⟨kind, hk⟩).terminal

/-- The rows outside the region are the same on both screens: their cells and their sizes. -/
def KeepsOutside (region : Margins) (before after : Terminal) : Prop :=
  ∀ kind y, y < before.height → ¬region.Has y →
    (after.grid kind).row y = (before.grid kind).row y ∧
      (after.grid kind).lineSize y = (before.grid kind).lineSize y

theorem KeepsOutside.of_grids {before after : Terminal}
    (h : ∀ kind, after.grid kind = before.grid kind) : KeepsOutside region before after := by
  intro kind y _ _
  rw [h kind]
  exact ⟨rfl, rfl⟩

theorem KeepsOutside.trans {a b c : Terminal} (hab : KeepsOutside region a b)
    (hbc : KeepsOutside region b c) (hheight : b.height = a.height) :
    KeepsOutside region a c := by
  intro kind y hy hout
  obtain ⟨hrow, hsize⟩ := hab kind y hy hout
  obtain ⟨hrow', hsize'⟩ := hbc kind y (hheight ▸ hy) hout
  exact ⟨hrow'.trans hrow, hsize'.trans hsize⟩

theorem grid_eq (t : Terminal) (kind : ScreenKind) :
    t.grid kind = if kind = t.modes.screen then t.live else t.hidden := by
  unfold live hidden grid
  cases kind <;> cases t.modes.screen <;> rfl

/-- Rows are the same where no change is told. -/
theorem row_of_reports {r : Reaction} {width height : Nat} (ht : t.Fits width height)
    (hafter : r.terminal.Fits width height) (hr : r.Reports t.live width height)
    {y : Nat} (hy : y < height) (hquiet : ¬ToldRow r.notices y) :
    r.terminal.live.row y = t.live.row y ∧
      r.terminal.live.lineSize y = t.live.lineSize y := by
  constructor
  · rw [Grid.row, Grid.row, hafter.live.width_eq, ht.live.width_eq]
    refine List.map_congr_left fun x hx => ?_
    obtain ⟨first, last, hn, -⟩ | he := hr.cells x y (List.mem_range.mp hx) hy
    · exact absurd ⟨first, last, hn⟩ hquiet
    · exact he
  · exact (hr.sizes y hy).resolve_left hquiet

theorem Confined.keepsOutside (h : t.Confined region) {width height : Nat}
    (ht : t.Fits width height) {c : Command} (hc : c.leavesRegion = false) :
    KeepsOutside region t (t.obey c).terminal := by
  obtain rfl | rfl | rfl | rfl | ⟨kind, rfl⟩ | hseen := c.keepsUnseen_cases
  · exact .of_grids fun kind => by cases kind <;> rfl
  · cases hc
  · cases hc
  · cases hc
  · exact .of_grids fun kind => by cases kind <;> rfl
  · -- Of the grid on display all changes are told, and the other one is not touched.
    intro kind y hy hout
    have htold := (h.obey_told hc hseen.switch).told
    have hun := obey_unaware hseen
    have hscreen : (t.obey c).terminal.modes.screen = t.modes.screen :=
      (hun t t.hidden t.saved).2
    rw [grid_eq, grid_eq, hscreen]
    split
    · exact row_of_reports ht (ht.obey c) (ht.obey_reports c) (ht.height_eq ▸ hy)
        fun hrow => hout (htold y hrow)
    · rw [hun.hidden t]
      exact ⟨rfl, rfl⟩

/-- The region holds a whole run, and the rows outside it stay as they were on both screens. -/
theorem Confined.obeyAll (h : t.Confined region) {width height : Nat}
    (ht : t.Fits width height) {commands : List Command}
    (hc : ∀ c ∈ commands, c.leavesRegion = false) :
    (obeyAll commands t).terminal.Confined region ∧
      KeepsOutside region t (obeyAll commands t).terminal := by
  induction commands generalizing t with
  | nil => exact ⟨h, .of_grids fun _ => rfl⟩
  | cons c commands ih =>
      have hfirst := hc c (List.mem_cons_self ..)
      obtain ⟨hend, hkeeps⟩ := ih (h.obey hfirst) (ht.obey c)
        fun c hm => hc c (List.mem_cons_of_mem _ hm)
      have hheight : (t.obey c).terminal.height = t.height := by
        rw [(ht.obey c).height_eq, ht.height_eq]
      exact ⟨hend, (h.keepsOutside ht hfirst).trans hkeeps hheight⟩

/-- With addresses from the margin and the cursor in the scroll region, commands that leave the
margins, the origin and the saved cursors alone and do not work on the whole screen are confined
to the region: at every point of a run of them the margins are the same, the cursor is on a row
of the region, and the other rows of both screens show the same cells in the same size. -/
theorem Reachable.confined_to_region (h : Reachable t) (horigin : t.modes.origin = .margin)
    (hrow : t.margins.Has t.cursor.y) {commands : List Command}
    (hc : ∀ c ∈ commands, c.leavesRegion = false) (count : Nat) :
    let after := (Terminal.obeyAll (commands.take count) t).terminal
    after.margins = t.margins ∧ t.margins.Has after.cursor.y ∧
      ∀ kind y, y < t.height → ¬t.margins.Has y →
        (after.grid kind).row y = (t.grid kind).row y ∧
          (after.grid kind).lineSize y = (t.grid kind).lineSize y := by
  intro after
  have ht : t.Fits t.width t.height := h.wellFormed
  have hconfined : t.Confined t.margins := ⟨horigin, rfl, Nat.le_pred_of_lt ht.margins.2, hrow⟩
  obtain ⟨hafter, hkeeps⟩ := hconfined.obeyAll ht
    fun c hm => hc c (List.mem_of_mem_take hm)
  exact ⟨hafter.margins, hafter.row, hkeeps⟩

/-- Two rows of four scroll, are left through the bottom and the top, and are overwritten on both
screens. -/
theorem status_line_stays :
    let t := (obeyAll [.print "ab", .goto 4 1, .print "cd", .margins (some 2) (some 3),
      .origin .margin] (initial 2 4 1)).terminal
    let commands : List Command := [.print "uvwxyz", .saveCursor, .lineFeed, .arrow .down 9,
      .mode (.screen .alternate), .goto 9 9, .index, .deleteLines 9, .arrow .up 9, .reverseIndex]
    t.margins = ⟨1, 2⟩ ∧ t.primary.row 3 ≠ (Grid.blank 2 4).row 3 ∧
      ∀ count : Nat,
        let after := (obeyAll (commands.take count) t).terminal
        after.margins = t.margins ∧ t.margins.Has after.cursor.y ∧
          ∀ kind y, y < t.height → ¬t.margins.Has y →
            (after.grid kind).row y = (t.grid kind).row y ∧
              (after.grid kind).lineSize y = (t.grid kind).lineSize y := by
  intro t commands
  have hr : Reachable t :=
    each_keeps (fun c _ ht => .obey ht c) _
      (.create (show 2 * 4 ≤ Stored.wordLimit by decide) rfl)
  exact ⟨rfl, by decide, Reachable.confined_to_region hr rfl (by decide) (by decide)⟩

end Terminal

end TermReplay

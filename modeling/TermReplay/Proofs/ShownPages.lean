import TermReplay.Proofs.HistoryRing
import TermReplay.Proofs.Preservation
import TermReplay.Proofs.RowImages
import TermReplay.Proofs.WrappedLines

/-!
A terminal in its plain state shows the end of the page that is written on it. Each character and
each new line turns the page, and what is above the screen was told row by row as it left; so
the notices and the screen together are the page.
-/

namespace TermReplay

def Cell.padded (width : Nat) (row : List Char) : List Cell :=
  (row.rightpad width ' ').map fun char => { char }

def RowImage.padded (width : Nat) (row : List Char) : RowImage :=
  .ofCells (Cell.padded width row) .single

theorem Cell.padded_eq {width : Nat} {row : List Char} (h : row.length ≤ width) :
    Cell.padded width row =
      (List.range width).map fun x => { char := row[x]?.getD ' ' } := by
  apply List.ext_getElem?
  intro x
  rw [padded, List.rightpad, List.getElem?_map, List.getElem?_map, List.getElem?_append,
    List.getElem?_replicate]
  by_cases hx : x < width
  · rw [List.getElem?_range hx, Option.map_some]
    by_cases hrow : x < row.length
    · rw [if_pos hrow, List.getElem?_eq_getElem hrow]
      rfl
    · rw [if_neg hrow, if_pos (by omega), List.getElem?_eq_none (by omega : row.length ≤ x)]
      rfl
  · rw [if_neg (by omega), if_neg (by omega),
      List.getElem?_eq_none (by rw [List.length_range]; omega)]
    rfl

/-- The grid shows the end of a page in plain cells. -/
structure Grid.Shows (g : Grid) (width height : Nat) (p : Page Char) : Prop where
  cell : ∀ x y, x < width → y < height →
    g.cell x y = { char := (p.shown height y)[x]?.getD ' ' }
  size : ∀ y, y < height → g.lineSize y = .single

/-- Upwards through a whole screen, every row is the one that was below it. -/
theorem Plane.cycleSource_up {height y : Nat} (hy : y < height) :
    Plane.cycleSource 0 (height - 1) y = if y + 1 = height then none else some (y + 1) := by
  rw [Plane.cycleSource]
  by_cases hlast : y + 1 = height
  · rw [if_pos (by omega), if_pos hlast]
  · rw [if_neg (by omega), if_neg hlast, if_pos (by omega : y < height - 1)]
    rfl

namespace Grid.Shows

variable {g : Grid} {width height : Nat} {p : Page Char}

theorem blank (width height : Nat) : (Grid.blank width height).Shows width height {} where
  cell x y hx hy := by
    have hshown : (({} : Page Char).shown height y) = [] := by
      rw [Page.shown_eq, Page.rows_getElem?]
      split <;> rfl
    have hposition : x + y * width < width * height := position_lt hx hy
    rw [hshown]
    simp only [Grid.cell, Grid.blank, uniform, index, cellAt, Array.getElem?_replicate,
      if_pos hposition]
    rfl
  size y hy := by
    simp only [lineSize, Grid.blank, uniform, Array.getElem?_replicate, if_pos hy]
    rfl

/-- A character behind the last one of its row. -/
theorem type (h : g.Shows width height p) (hg : g.Fits width height)
    (hroom : p.last.length < width) (hh : 0 < height) (char : Char) :
    (g.set p.last.length (p.row height) { char }).Shows width height (p.type width char) where
  cell x y hx hy := by
    have hrow : p.row height < height := by rw [Page.row]; omega
    rw [cell_set hg { char } hroom hrow hx, Page.shown_type_of_room hroom char hy,
      h.cell x y hx hy]
    by_cases hy' : y = p.row height
    · rw [if_pos hy', hy', p.shown_row hh]
      by_cases hx' : x = p.last.length
      · rw [if_pos ⟨hx', rfl⟩, hx', List.getElem?_concat_length]
        rfl
      · rw [if_neg fun he => hx' he.1]
        congr 2
        by_cases hlt : x < p.last.length
        · rw [List.getElem?_append_left hlt]
        · have hlength : (p.last ++ [char]).length ≤ x := by
            rw [List.length_append, List.length_singleton]
            omega
          rw [List.getElem?_eq_none hlength, List.getElem?_eq_none (Nat.le_of_not_lt hlt)]
    · rw [if_neg fun he => hy' he.2, if_neg hy']
  size y hy := h.size y hy

theorem newLine_of_room (h : g.Shows width height p) (hroom : p.rows.length < height) :
    g.Shows width height p.newLine where
  cell x y hx hy := by rw [h.cell x y hx hy, Page.shown_newLine_of_room hroom]
  size := h.size

theorem newLine_of_full (h : g.Shows width height p) (hg : g.Fits width height)
    (hfull : height ≤ p.rows.length) (hh : 0 < height) :
    (g.cycleRows 0 (height - 1)).Shows width height p.newLine where
  cell x y hx hy := by
    rw [cell_cycleRows hg hh (by omega) hx, Page.shown_newLine_of_full hfull hy,
      Plane.cycleSource_up hy]
    by_cases hlast : y + 1 = height
    · rw [if_pos hlast, if_pos hlast]
      rfl
    · rw [if_neg hlast, if_neg hlast]
      exact h.cell x (y + 1) hx (by omega)
  size y hy := by
    rw [lineSize_cycleRows hg hh (by omega), Plane.cycleSource_up hy]
    by_cases hlast : y + 1 = height
    · rw [if_pos hlast]
    · rw [if_neg hlast]
      exact h.size (y + 1) (by omega)

end Grid.Shows

/-- The screen shows the end of a page, in plain cells and with nothing set; the cursor is in
column `x` of the row that is being written. -/
structure Terminal.Shows (t : Terminal) (width height : Nat) (p : Page Char) (x : Nat) :
    Prop where
  fits : t.Fits width height
  live : t.live.Shows width height p
  cursor : t.cursor = { x, y := p.row height }
  modes : t.modes = {}
  margins : t.margins = .full height
  designations : t.designations = {}
  short : p.Short width

/-- From the page `before`, what was written turned it to `after`, and every row that left the
screen was told. -/
structure Reaction.Turns (r : Reaction) (width height : Nat) (before after : Page Char)
    (x : Nat) : Prop where
  shows : r.terminal.Shows width height after x
  told : (before.gone height).map (RowImage.padded width) ++ Notice.scrolledUp r.notices =
    (after.gone height).map (RowImage.padded width)

variable {width height : Nat} {p : Page Char} {t : Terminal} {x : Nat}

theorem Notice.scrolledUp_append (xs ys : List Notice) :
    scrolledUp (xs ++ ys) = scrolledUp xs ++ scrolledUp ys := List.filterMap_append

theorem Notice.scrolledUp_wholeRows (t : Terminal) (rows : List Nat) :
    scrolledUp (t.wholeRows rows) = [] := by
  rw [scrolledUp, Terminal.wholeRows, List.filterMap_map, List.filterMap_eq_nil_iff]
  exact fun _ _ => rfl

/-- Nothing left the screen. -/
theorem Reaction.Turns.of_gone_eq {r : Reaction} {after : Page Char}
    (hs : r.terminal.Shows width height after x) (hgone : after.gone height = p.gone height)
    (hnotices : Notice.scrolledUp r.notices = []) : r.Turns width height p after x :=
  ⟨hs, by rw [hnotices, List.append_nil, hgone]⟩

theorem Reaction.Turns.andThen {r : Reaction} {f : Terminal → Reaction} {q after : Page Char}
    {x' : Nat} (hr : r.Turns width height p q x)
    (hf : (f r.terminal).Turns width height q after x') :
    (r.andThen f).Turns width height p after x' where
  shows := hf.shows
  told := by
    rw [Reaction.andThen_notices, Notice.scrolledUp_append, ← List.append_assoc, hr.told, hf.told]

namespace Terminal.Shows

theorem shown_length_le (h : t.Shows width height p x) (y : Nat) :
    (p.shown height y).length ≤ width := by
  rw [Page.shown_eq]
  cases hrow : p.rows[p.done.length + 1 - height + y]? with
  | none => exact Nat.zero_le _
  | some row => exact h.short row (List.mem_of_getElem? hrow)

theorem row_eq (h : t.Shows width height p x) {y : Nat} (hy : y < height) :
    t.live.row y = Cell.padded width (p.shown height y) := by
  rw [Cell.padded_eq (h.shown_length_le y), Grid.row, h.fits.live.width_eq]
  apply List.map_congr_left
  intro x hx
  exact h.live.cell x y (List.mem_range.mp hx) hy

theorem rowImage_eq (h : t.Shows width height p x) {y : Nat} (hy : y < height) :
    t.live.rowImage y = RowImage.padded width (p.shown height y) := by
  rw [h.fits.live.rowImage_eq hy, h.row_eq hy, h.live.size y hy, RowImage.padded]

theorem row_lt (h : t.Shows width height p x) : p.row height < height := by
  have hh := h.fits.two_rows
  rw [Page.row]
  omega

theorem column_le (h : t.Shows width height p x) : x ≤ width := by
  have hcursor := h.fits.cursor.1
  rwa [h.cursor] at hcursor

theorem moved (h : t.Shows width height p x) {x' : Nat} (hx : x' ≤ width) :
    (t.moveTo x' (p.row height)).Shows width height p x' :=
  { h with
    fits := h.fits.moveTo hx h.row_lt
    live := h.live
    cursor := by rw [moveTo, h.cursor]; rfl }

theorem edited (h : t.Shows width height p x) {f : Grid → Grid} {q : Page Char}
    (hf : ∀ g : Grid, g.Fits width height → (f g).Fits width height)
    (hlive : (f t.live).Shows width height q) (hrow : q.row height = p.row height)
    (hshort : q.Short width) : (t.editLive f).Shows width height q x where
  fits := h.fits.editLive hf
  live := by rwa [editLive_live]
  cursor := by rw [editLive_cursor, h.cursor, hrow]
  modes := (editLive_modes t f).trans h.modes
  margins := (editLive_margins t f).trans h.margins
  designations := (editLive_designations t f).trans h.designations
  short := hshort

/-- A character behind the last one of its row. -/
theorem place (h : t.Shows width height p p.last.length) (hroom : p.last.length < width)
    (char : Char) :
    (t.place char).Turns width height p (p.type width char)
      (p.type width char).last.length := by
  have hh : 0 < height := Nat.zero_lt_of_lt h.row_lt
  have hplace : t.place char = ((t.editLive (·.set p.last.length (p.row height) { char })).telling
      [.change (p.row height) p.last.length p.last.length]).andThen
      fun t => (t.moveTo (p.last.length + 1) (p.row height)).tellingCursor := by
    rw [Terminal.place, h.modes, h.cursor]
    rfl
  have hrow : (p.type width char).row height = p.row height := by
    rw [Page.type, if_pos hroom]
    rfl
  have hlast : (p.type width char).last.length = p.last.length + 1 := by
    rw [Page.type, if_pos hroom]
    exact List.length_append
  have hmoved := (h.edited (fun g hg => hg.set _ _ _) (h.live.type h.fits.live hroom hh char) hrow
    (h.short.type hroom char)).moved hroom
  rw [hrow] at hmoved
  rw [hplace, hlast]
  exact .of_gone_eq hmoved (Page.gone_type_of_room hroom char hh) rfl

/-- At the bottom of a screen without margins the top row is told and taken out. -/
theorem scrollUp_one (h : t.Shows width height p x) :
    t.scrollUp 1 = (t.editLive (·.cycleRows 0 (height - 1))).telling
      (.scrolled (RowImage.padded width (p.shown height 0)) 1 ::
        t.wholeRows (rowsUpTo 0 (height - 1 + 1))) := by
  have hh := h.fits.two_rows
  have hregion : min 1 t.regionHeight = 1 := by rw [regionHeight]; omega
  rw [scrollUp, if_neg Nat.one_ne_zero, hregion, h.margins]
  refine Reaction.ext_parts rfl ?_
  show [Notice.scrolled (t.live.rowImage 0) 1] ++ [] ++
    (t.editLive (·.cycleRows 0 (height - 1))).tellingRegion.notices = _
  rw [tellingRegion, editLive_margins, editLive_wholeRows, h.margins, h.rowImage_eq (by omega)]
  rfl

/-- The region is the whole screen: what scrolls out of it leaves the screen. -/
theorem advanceLine_of_full (h : t.Shows width height p x) (hfull : height ≤ p.rows.length) :
    t.advanceLine.Turns width height p p.newLine x := by
  have hh := h.fits.two_rows
  have hlength := p.length_rows
  have hdone : p.newLine.done.length = p.rows.length := rfl
  have hrow : p.row height = height - 1 := by rw [Page.row]; omega
  have hnext : p.newLine.row height = p.row height := by rw [Page.row, Page.row]; omega
  have hadvance : t.advanceLine = t.scrollUp 1 := by
    rw [h.fits.advanceLine_eq, h.cursor, h.margins]
    exact if_pos hrow
  have htold : Notice.scrolledUp (.scrolled (RowImage.padded width (p.shown height 0)) 1 ::
      t.wholeRows (rowsUpTo 0 (height - 1 + 1))) =
      [RowImage.padded width (p.shown height 0)] :=
    congrArg (_ :: ·) (Notice.scrolledUp_wholeRows ..)
  rw [hadvance, h.scrollUp_one]
  refine ⟨h.edited (fun g hg => hg.cycleRows (by omega) (by omega))
    (h.live.newLine_of_full h.fits.live hfull (by omega)) hnext h.short.newLine, ?_⟩
  rw [telling_notices, htold, Page.gone_newLine_of_full hfull (by omega), List.map_append]
  rfl

theorem advanceLine_of_room (h : t.Shows width height p x) (hroom : p.rows.length < height) :
    t.advanceLine.Turns width height p p.newLine x := by
  have hlength := p.length_rows
  have hdone : p.newLine.done.length = p.rows.length := rfl
  have hrow : p.row height = p.done.length := by rw [Page.row]; omega
  have hnext : p.newLine.row height = p.done.length + 1 := by rw [Page.row]; omega
  have hadvance : t.advanceLine = (t.moveTo x (p.newLine.row height)).quietly := by
    rw [h.fits.advanceLine_eq, h.cursor, h.margins, lastRow, h.fits.height_eq, hrow, hnext]
    show (if p.done.length = height - 1 then _
      else (t.moveTo x (min (p.done.length + 1) (height - 1))).quietly) = _
    rw [if_neg (by omega), Nat.min_eq_left (by omega)]
  rw [hadvance]
  refine .of_gone_eq ?_ (Page.gone_newLine_of_room hroom) rfl
  exact { h with
    fits := h.fits.moveTo h.column_le (by omega)
    live := h.live.newLine_of_room hroom
    cursor := by rw [quietly_terminal, moveTo, h.cursor]; rfl
    short := h.short.newLine }

theorem advanceLine (h : t.Shows width height p x) :
    t.advanceLine.Turns width height p p.newLine x := by
  by_cases hfull : height ≤ p.rows.length
  · exact h.advanceLine_of_full hfull
  · exact h.advanceLine_of_room (Nat.lt_of_not_le hfull)

/-- A full row is left only when more comes. -/
theorem printChar (h : t.Shows width height p p.last.length) (char : Char) :
    (printChar char t).Turns width height p (p.type width char)
      (p.type width char).last.length := by
  have hpos := h.fits.width_pos
  have hle := h.column_le
  have hprint : Terminal.printChar char t = t.settleWrap.andThen (·.place char) := by
    rw [Terminal.printChar, h.designations]
    rfl
  rw [hprint]
  by_cases hroom : p.last.length < width
  · have hsettle : t.settleWrap = t.quietly := by
      rw [settleWrap, h.cursor, h.fits.width_eq]
      exact if_neg (Nat.ne_of_lt hroom)
    rw [hsettle]
    exact h.place hroom char
  · have hfull : p.last.length = width := Nat.le_antisymm hle (Nat.le_of_not_lt hroom)
    have hsettle : t.settleWrap = (t.moveTo 0 (p.row height)).advanceLine := by
      rw [settleWrap, h.cursor, h.fits.width_eq, h.modes]
      exact if_pos hfull
    have hturned := (h.moved (Nat.zero_le width)).advanceLine
    rw [hsettle, Page.type_of_full hpos hfull]
    exact hturned.andThen (hturned.shows.place hpos char)

theorem tellingCursor (h : t.Shows width height p x) :
    t.tellingCursor.Turns width height p p x :=
  .of_gone_eq h rfl rfl

end Terminal.Shows

end TermReplay

import TermReplay.Proofs.DrawnAndMoved
import TermReplay.Proofs.Drawing
import TermReplay.Proofs.FullScreen
import TermReplay.Proofs.Reachability
import TermReplay.Proofs.TableShifts

/-!
Printing that does not wrap. With the mode off a text stays in the row of the cursor: it is written
over what was there, and once the row is full every further character goes back to the last column,
so that of those only the last one stays.
-/

namespace TermReplay

section Overlay

open Shift (within within_append)

variable {α : Type}

/-- A part of a row with a text laid over it from its front. Of a text that is too long for the
part the front is there up to the last place, and on that the end of the text. -/
def overlay (text part : List α) : List α :=
  if text.length ≤ part.length then text ++ part.drop text.length
  else text.take (part.length - 1) ++ text.getLast?.toList

theorem overlay_singleton (value own : α) (back : List α) :
    overlay [value] (own :: back) = value :: back :=
  if_pos (Nat.succ_le_succ (Nat.zero_le back.length))

/-- With a place behind the first, the rest of the text goes there. -/
theorem overlay_cons_cons (value own next : α) {text : List α} (htext : text ≠ [])
    (back : List α) :
    overlay (value :: text) (own :: next :: back) = value :: overlay text (next :: back) := by
  simp only [overlay, List.length_cons, Nat.add_le_add_iff_right,
    List.getLast?_cons_of_ne_nil htext]
  split <;> rfl

/-- On a single place only the end of the text is to be seen. -/
theorem overlay_single {text : List α} (htext : text ≠ []) (own : α) :
    overlay text [own] = text.getLast?.toList := by
  cases text with
  | nil => exact absurd rfl htext
  | cons value text =>
      cases text with
      | nil => rfl
      | cons next text => exact if_neg (by simp)

theorem within_tail (f : List α → List α) (front part : List α) :
    within front.length (front.length + part.length) f (front ++ part) = front ++ f part := by
  have hpart : within front.length (front.length + part.length) f (front ++ part ++ []) =
      front ++ f part ++ [] :=
    within_append f rfl rfl []
  rwa [List.append_nil, List.append_nil] at hpart

theorem exists_split {x : Nat} {row : List α} (hx : x < row.length) :
    ∃ front own back, row = front ++ own :: back ∧ front.length = x ∧
      ∀ value, row.set x value = front ++ value :: back := by
  have hfront : (row.take x).length = x := by
    rw [List.length_take, Nat.min_eq_left (Nat.le_of_lt hx)]
  refine ⟨row.take x, row[x], row.drop (x + 1), ?_, hfront, fun value => ?_⟩
  · rw [← List.drop_eq_getElem_cons, List.take_append_drop]
  · rw [List.set_eq_take_append_cons_drop, if_pos hx]

variable {x width : Nat} {row : List α}

theorem within_overlay_singleton (hrow : row.length = width) (hx : x < width) (value : α) :
    within x width (overlay [value]) row = row.set x value := by
  subst hrow
  obtain ⟨front, own, back, rfl, rfl, hset⟩ := exists_split hx
  rw [hset, List.length_append, within_tail, overlay_singleton]

/-- The first value takes its place, and the rest of the text is laid over from the place behind,
or over the first value again if there is none behind. -/
theorem within_overlay_cons (hrow : row.length = width) (hx : x < width) (value : α)
    {text : List α} (htext : text ≠ []) :
    within x width (overlay (value :: text)) row =
      within (min (x + 1) (width - 1)) width (overlay text) (row.set x value) := by
  subst hrow
  obtain ⟨front, own, back, rfl, rfl, hset⟩ := exists_split hx
  rw [hset, List.length_append, within_tail]
  cases back with
  | nil =>
      have hlast : min (front.length + 1) (front.length + [own].length - 1) = front.length := by
        simp
      rw [hlast, overlay_single (List.cons_ne_nil _ _), List.getLast?_cons_of_ne_nil htext,
        ← overlay_single htext value]
      exact (within_tail (overlay text) front [value]).symm
  | cons next back =>
      have hbehind : min (front.length + 1) (front.length + (own :: next :: back).length - 1) =
          (front ++ [value]).length := by
        simp
      have hstop : front.length + (own :: next :: back).length =
          (front ++ [value]).length + (next :: back).length := by
        simp only [List.length_append, List.length_cons, List.length_nil]
        omega
      have hrest := within_tail (overlay text) (front ++ [value]) (next :: back)
      rw [List.append_assoc, List.append_assoc] at hrest
      rw [hbehind, hstop, overlay_cons_cons value own next htext]
      exact hrest.symm

end Overlay

namespace Terminal

open Shift (within)

variable {t : Terminal}

def toldAt (t : Terminal) (column : Nat) : List Notice :=
  [.change t.cursor.y column column, .cursor (column + 1) t.cursor.y]

/-- A move of both terminals, before and after. -/
theorem Redrawn.moveTo {u : Terminal} (h : t.Redrawn u) (x y : Nat) :
    (t.moveTo x y).Redrawn (u.moveTo x y) where
  rest := by
    have hrest := congrArg (·.moveTo x y) h.rest
    rwa [← editLive_moveTo] at hrest
  fits := h.fits

theorem Redrawn.row_of_moved {u : Terminal} {x y : Nat} (h : (t.moveTo x y).Redrawn u) :
    u.cursor.y = y := by
  rw [h.cursor]
  rfl

theorem Redrawn.column_of_moved {u : Terminal} {x y : Nat} (h : (t.moveTo x y).Redrawn u) :
    u.column = min x t.lastColumn := by
  rw [h.column]
  rfl

/-- Without the mode, a wrap that is pending is undone. -/
theorem settleWrap_of_held (h : t.WellFormed) (hw : t.modes.autoWrap = false) :
    t.settleWrap = (t.moveTo t.column t.cursor.y).quietly := by
  have hx := (Fits.cursor h).1
  have hpos := Fits.width_pos h
  rw [settleWrap, hw]
  split
  · next hfull =>
      have hcolumn : t.column = t.lastColumn := by
        rw [column, hfull, lastColumn]
        omega
      rw [hcolumn]
      rfl
  · next hroom =>
      have hcolumn : t.column = t.cursor.x := by
        rw [column, lastColumn]
        omega
      rw [hcolumn, moveTo_self]

/-- A character is written under the cursor, and the cursor goes behind it. -/
theorem printChar_of_held (h : t.WellFormed) (hw : t.modes.autoWrap = false)
    (hi : t.modes.insert = false) (char : Char) :
    printChar char t =
      ((t.moveTo (t.column + 1) t.cursor.y).editLive
        (·.set t.column t.cursor.y (t.shownAs char))).telling (t.toldAt t.column) := by
  have hplace : ¬(t.moveTo t.column t.cursor.y).modes.insert = true := by
    rw [moveTo, hi]
    exact Bool.false_ne_true
  rw [printChar, settleWrap_of_held h hw, editLive_moveTo]
  show (t.moveTo t.column t.cursor.y).place _ = _
  rw [place, if_neg hplace, editLive_moveTo]
  rfl

theorem printChar_draws (h : t.WellFormed) (hw : t.modes.autoWrap = false)
    (hi : t.modes.insert = false) (char : Char) :
    (printChar char t).Draws (t.moveTo (t.column + 1) t.cursor.y)
      (t.live.table.modify t.cursor.y (.mapCells (·.set t.column (t.shownAs char))))
      (t.toldAt t.column) := by
  have hlive : t.live.Fits t.width t.height := Fits.live h
  rw [printChar_of_held h hw hi]
  exact .of_edit (hlive.set t.column t.cursor.y (t.shownAs char))
    (hlive.table_set _ (Fits.column_lt h) (Fits.cursor h).2)

def overlaid (t : Terminal) (text : List Char) : List Line :=
  t.live.table.modify t.cursor.y
    (.mapCells (within t.column t.width (overlay (text.map t.shownAs))))

def toldOver (t : Terminal) (text : List Char) : List Notice :=
  (List.range text.length).flatMap fun k => t.toldAt (min (t.column + k) t.lastColumn)

theorem overlaid_singleton (h : t.WellFormed) (char : Char) :
    t.overlaid [char] =
      t.live.table.modify t.cursor.y (.mapCells (·.set t.column (t.shownAs char))) :=
  (Fits.live h).modify_cells_congr (fun _ hwidth =>
    within_overlay_singleton hwidth (Fits.column_lt h) (t.shownAs char)) t.cursor.y

theorem toldOver_singleton (t : Terminal) (char : Char) :
    t.toldOver [char] = t.toldAt t.column := by
  have hlast : min (t.column + 0) t.lastColumn = t.column := Nat.min_eq_left (Nat.min_le_right ..)
  rw [toldOver, List.length_singleton, List.range_one, List.flatMap_singleton, hlast]

/-- After a character, the rest of a text is to be laid over from the place behind it. -/
theorem overlaid_cons (h : t.WellFormed) (hw : t.modes.autoWrap = false)
    (hi : t.modes.insert = false) (char : Char) {text : List Char} (htext : text ≠ []) :
    (printChar char t).terminal.overlaid text = t.overlaid (char :: text) := by
  have hfirst := printChar_draws h hw hi char
  rw [overlaid, overlaid, hfirst.table_eq, hfirst.row_of_moved, hfirst.column_of_moved,
    hfirst.width, (printChar_drawnAndMoved t char).shownAs, List.modify_modify_eq,
    Line.mapCells_comp]
  refine (Fits.live h).modify_cells_congr (fun cells hwidth => ?_) t.cursor.y
  have hshown : text.map t.shownAs ≠ [] := mt List.map_eq_nil_iff.mp htext
  exact (within_overlay_cons hwidth (Fits.column_lt h) (t.shownAs char) hshown).symm

theorem toldOver_cons (h : t.WellFormed) (hw : t.modes.autoWrap = false)
    (hi : t.modes.insert = false) (char : Char) (text : List Char) :
    t.toldAt t.column ++ (printChar char t).terminal.toldOver text =
      t.toldOver (char :: text) := by
  have hfirst := printChar_draws h hw hi char
  have hfront : min t.column t.lastColumn = t.column := Nat.min_eq_left (Nat.min_le_right ..)
  have hbehind : ∀ k, (printChar char t).terminal.toldAt
      (min ((printChar char t).terminal.column + k) (printChar char t).terminal.lastColumn) =
        t.toldAt (min (t.column + (k + 1)) t.lastColumn) := by
    intro k
    have hlast : (printChar char t).terminal.lastColumn = t.lastColumn := hfirst.lastColumn
    rw [toldAt, toldAt, hfirst.row_of_moved, hfirst.column_of_moved, hlast,
      show min (min (t.column + 1) t.lastColumn + k) t.lastColumn =
        min (t.column + (k + 1)) t.lastColumn by omega]
  rw [toldOver, toldOver, List.length_cons, List.range_succ_eq_map, List.flatMap_cons,
    List.flatMap_map, Nat.add_zero, hfront]
  simp only [hbehind]

theorem each_printChar_draws (h : t.WellFormed) (hw : t.modes.autoWrap = false)
    (hi : t.modes.insert = false) (char : Char) (text : List Char) :
    (each printChar (char :: text) t).Draws
      (t.moveTo (min (t.column + (char :: text).length) t.width) t.cursor.y)
      (t.overlaid (char :: text)) (t.toldOver (char :: text)) := by
  have hx := Fits.column_lt h
  induction text generalizing t char with
  | nil =>
      have hfirst := printChar_draws h hw hi char
      have hend : min (t.column + [char].length) t.width = t.column + 1 := Nat.min_eq_left hx
      rw [each_singleton, hend, overlaid_singleton h, toldOver_singleton]
      exact hfirst
  | cons next text ih =>
      let u := (printChar char t).terminal
      have hfirst : (t.moveTo (t.column + 1) t.cursor.y).Redrawn u :=
        (printChar_draws h hw hi char).toRedrawn
      have hu : u.WellFormed := hfirst.wellFormed (Fits.moveTo h hx (Fits.cursor h).2)
      have hkept : t.DrawnAndMoved u := printChar_drawnAndMoved t char
      have hrest := ih hu (hkept.modes ▸ hw) (hkept.modes ▸ hi) next (Fits.column_lt hu)
      have hend : u.moveTo (min (u.column + (next :: text).length) u.width) u.cursor.y =
          u.moveTo (min (t.column + (char :: next :: text).length) t.width) t.cursor.y := by
        have hwidth : u.width = t.width := hfirst.width
        rw [hfirst.row_of_moved, hfirst.column_of_moved, hwidth, lastColumn]
        simp only [List.length_cons]
        congr 1
        omega
      rw [hend, overlaid_cons h hw hi char (List.cons_ne_nil _ _)] at hrest
      refine ⟨(hfirst.moveTo _ _).trans hrest.toRedrawn, hrest.table_eq, ?_⟩
      have htold := (printChar_draws h hw hi char).notices_eq
      rw [← toldOver_cons h hw hi char, ← htold, ← hrest.notices_eq]
      rfl

theorem scrolled_not_mem_toldOver (text : List Char) (image : RowImage) (direction : Int) :
    .scrolled image direction ∉ t.toldOver text := by
  simp [toldOver, toldAt]

/-- Text printed with neither wrapping nor insert mode stays in the row of the cursor. With places
enough from the cursor to the end of the row, the text is laid over the cells there; otherwise the
front of the text is, up to the last column, which shows the last character. Each character is
shown through the active set and with the pen of the cursor. Nothing else is changed but the
column of the cursor, which ends behind the text, or behind the row if that is nearer; what is told
is each of these cells with the cursor behind it, and no row as scrolled. -/
theorem print_without_wrap (h : t.WellFormed) (hw : t.modes.autoWrap = false)
    (hi : t.modes.insert = false) {text : String} (htext : text ≠ "") :
    (t.obey (.print text)).Draws
        (t.moveTo (min (t.column + text.length) t.width) t.cursor.y)
        (t.overlaid text.toList) (t.toldOver text.toList) ∧
      ∀ image direction, .scrolled image direction ∉ (t.obey (.print text)).notices := by
  obtain ⟨char, rest, hchars⟩ := List.exists_cons_of_ne_nil (mt String.toList_eq_nil_iff.mp htext)
  have hdraws := each_printChar_draws h hw hi char rest
  rw [← hchars, String.length_toList] at hdraws
  refine ⟨hdraws, ?_⟩
  intro image direction
  have hnotices : (t.obey (.print text)).notices = t.toldOver text.toList := hdraws.notices_eq
  rw [hnotices]
  exact scrolled_not_mem_toldOver _ image direction

/-- Three characters for the last of four columns, with a wrap pending that was due before the
mode went off. -/
theorem print_without_wrap_from_wrap_pending :
    let t := (obeyAll [.print "abcd", .mode (.autoWrap false), .designate .g0 .line,
      .attribute 7] (initial 4 2 1)).terminal
    let u := (t.obey (.print "axq")).terminal
    t.cursor.x = t.width ∧ t.modes.autoWrap = false ∧ t.modes.insert = false ∧
      (t.obey (.print "axq")).Draws (t.moveTo 4 0) (t.overlaid ['a', 'x', 'q'])
        ((List.replicate 3 (t.toldAt 3)).flatten) ∧
      u.live.rowText 0 = "abc─" ∧ u.cursor = t.cursor := by
  intro t u
  have ht : Reachable t :=
    each_keeps (fun c _ ht => .obey ht c) _
      (.create (show 4 * 2 ≤ Stored.wordLimit by decide) rfl)
  obtain ⟨hdraws, -⟩ := print_without_wrap ht.wellFormed rfl rfl (show "axq" ≠ "" by decide)
  exact ⟨rfl, rfl, rfl, hdraws, by decide, hdraws.cursor⟩

end Terminal

end TermReplay

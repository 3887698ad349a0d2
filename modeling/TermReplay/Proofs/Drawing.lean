import TermReplay.Proofs.GridTable
import TermReplay.Proofs.Preservation

/-!
Reactions that draw. Of the whole state they change nothing but the grid on display: an edit of
that grid does no more, and neither does one such reaction after the other.
-/

namespace TermReplay

/-- `u` differs from `t` in the grid on display only, and that still has its size. -/
structure Terminal.Redrawn (t u : Terminal) : Prop where
  rest : (t.editLive fun _ => u.live) = u
  fits : u.live.Fits t.width t.height

namespace Terminal.Redrawn

variable {t u v : Terminal}

theorem width (h : t.Redrawn u) : u.width = t.width := by rw [← h.rest, editLive_width]

theorem height (h : t.Redrawn u) : u.height = t.height := by rw [← h.rest, editLive_height]

theorem cursor (h : t.Redrawn u) : u.cursor = t.cursor := by rw [← h.rest, editLive_cursor]

theorem margins (h : t.Redrawn u) : u.margins = t.margins := by rw [← h.rest, editLive_margins]

theorem lastColumn (h : t.Redrawn u) : u.lastColumn = t.lastColumn := by
  rw [← h.rest, editLive_lastColumn]

theorem column (h : t.Redrawn u) : u.column = t.column := by rw [← h.rest, editLive_column]

theorem wellFormed (h : t.Redrawn u) (ht : t.WellFormed) : u.WellFormed := by
  have hfits : (t.editLive fun _ => u.live).Fits t.width t.height :=
    Fits.editLive ht fun _ _ => h.fits
  rw [h.rest] at hfits
  rw [WellFormed, h.width, h.height]
  exact hfits

theorem of_edit {f : Grid → Grid} (hf : (f t.live).Fits t.width t.height) :
    t.Redrawn (t.editLive f) where
  rest := by
    rw [editLive_live]
    exact editLive_live_const t f
  fits := by rwa [editLive_live]

theorem trans (h : t.Redrawn u) (h' : u.Redrawn v) : t.Redrawn v where
  rest := by
    have hrest := h'.rest
    rw [← h.rest, editLive_editLive] at hrest
    exact hrest
  fits := by
    have hfits := h'.fits
    rwa [h.width, h.height] at hfits

/-- What was drawn is all there is to tell two such terminals apart. -/
theorem eq_of_live_eq (h : t.Redrawn u) (h' : t.Redrawn v) (hl : u.live = v.live) : u = v := by
  rw [← h.rest, ← h'.rest, hl]

end Terminal.Redrawn

/-- The rows on display become `table`, with `notices` told; nothing else differs from `t`. -/
structure Reaction.Draws (r : Reaction) (t : Terminal) (table : List Line)
    (notices : List Notice) : Prop extends t.Redrawn r.terminal where
  table_eq : r.terminal.live.table = table
  notices_eq : r.notices = notices

theorem Reaction.Draws.of_edit {t : Terminal} {f : Grid → Grid} {table : List Line}
    {notices : List Notice} (hf : (f t.live).Fits t.width t.height)
    (ht : (f t.live).table = table) : ((t.editLive f).telling notices).Draws t table notices where
  toRedrawn := .of_edit hf
  table_eq := by rw [Terminal.telling_terminal, Terminal.editLive_live, ht]
  notices_eq := Terminal.telling_notices ..

end TermReplay

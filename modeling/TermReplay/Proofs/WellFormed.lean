import TermReplay.Proofs.GridCells
import TermReplay.Proofs.Reactions

/-!
Terminals whose parts fit together. The predicate is relative to a size, so what keeps it keeps
the size too. Every command keeps it, whatever its counts and texts: this is one lemma for each
way to change a part, and one case for each command.
-/

namespace TermReplay

/-- A position on the grid, or one past the last column. -/
def Cursor.Inside (c : Cursor) (width height : Nat) : Prop := c.x ≤ width ∧ c.y < height

/-- The region has at least two rows, all on the screen. -/
def Margins.Inside (m : Margins) (height : Nat) : Prop := m.top < m.bottom ∧ m.bottom < height

structure SavedCursors.Fits (s : SavedCursors) (width height : Nat) : Prop where
  room : 1 ≤ s.depth
  bounded : s.entries.length ≤ s.depth
  inside : ∀ c ∈ s.entries, c.Inside width height

structure Terminal.Fits (t : Terminal) (width height : Nat) : Prop where
  width_eq : t.width = width
  height_eq : t.height = height
  width_pos : 1 ≤ width
  two_rows : 2 ≤ height
  primary : t.primary.Fits width height
  alternate : t.alternate.Fits width height
  cursor : t.cursor.Inside width height
  saved : t.saved.Fits width height
  margins : t.margins.Inside height
  tabs : t.tabs.size = width

/-- The parts fit the size that the terminal has. -/
def Terminal.WellFormed (t : Terminal) : Prop := t.Fits t.width t.height

theorem Margins.full_inside {height : Nat} (h : 2 ≤ height) : (full height).Inside height := by
  constructor <;> simp only [full] <;> omega

namespace SavedCursors

variable {s : SavedCursors} {width height : Nat}

theorem empty_fits (depth width height : Nat) : (empty depth).Fits width height where
  room := Nat.le_max_right depth 1
  bounded := Nat.zero_le _
  inside := nofun

theorem push_fits (h : s.Fits width height) {c : Cursor} (hc : c.Inside width height) :
    (s.push c).Fits width height := by
  have hroom := h.room
  rw [push, if_neg (by omega)]
  refine ⟨hroom, List.length_take_le _ _, ?_⟩
  intro saved hs
  obtain rfl | hm := List.mem_cons.mp (List.mem_of_mem_take hs)
  · exact hc
  · exact h.inside saved hm

theorem pop_fits (h : s.Fits width height) {c : Cursor} {rest : SavedCursors}
    (hp : s.pop? = some (c, rest)) : c.Inside width height ∧ rest.Fits width height := by
  obtain ⟨entries, depth⟩ := s
  cases entries with
  | nil => cases hp
  | cons saved entries =>
      cases hp
      refine ⟨h.inside _ (List.mem_cons_self ..), h.room, ?_, ?_⟩
      · exact Nat.le_of_succ_le h.bounded
      · exact fun c hc => h.inside c (List.mem_cons_of_mem _ hc)

theorem clear_fits (h : s.Fits width height) : s.clear.Fits width height where
  room := h.room
  bounded := Nat.zero_le _
  inside := nofun

end SavedCursors

namespace Terminal

variable {t : Terminal} {width height : Nat}

theorem initial_fits {depth : Nat} (hw : 1 ≤ width) (hh : 2 ≤ height) :
    (initial width height depth).Fits width height where
  width_eq := rfl
  height_eq := rfl
  width_pos := hw
  two_rows := hh
  primary := Grid.blank_fits width height
  alternate := Grid.blank_fits width height
  cursor := ⟨Nat.zero_le _, by show 0 < height; omega⟩
  saved := SavedCursors.empty_fits depth width height
  margins := Margins.full_inside hh
  tabs := by simp [initial, defaultTabs]

theorem create_eq_ok {depth : Nat} (h : create width height depth = .ok t) :
    (1 ≤ width ∧ 2 ≤ height) ∧ t = initial width height depth := by
  rw [create] at h
  split at h
  · next hsize =>
      cases h
      exact ⟨hsize, rfl⟩
  · cases h

theorem Fits.live (h : t.Fits width height) : t.live.Fits width height := by
  simp only [Terminal.live, grid]
  split
  · exact h.primary
  · exact h.alternate

theorem Fits.editLive (h : t.Fits width height) {f : Grid → Grid}
    (hf : ∀ g : Grid, g.Fits width height → (f g).Fits width height) :
    (t.editLive f).Fits width height := by
  simp only [Terminal.editLive]
  split
  · exact { h with primary := hf _ h.primary }
  · exact { h with alternate := hf _ h.alternate }

theorem Fits.moveTo (h : t.Fits width height) {x y : Nat} (hx : x ≤ width) (hy : y < height) :
    (t.moveTo x y).Fits width height :=
  { h with cursor := ⟨hx, hy⟩ }

theorem Fits.setCursor (h : t.Fits width height) {c : Cursor} (hc : c.Inside width height) :
    { t with cursor := c }.Fits width height :=
  { h with cursor := hc }

theorem Fits.column_lt (h : t.Fits width height) : t.column < width := by
  have hw := h.width_eq
  have hpos := h.width_pos
  simp only [column, lastColumn]
  omega

theorem Fits.lastColumn_lt (h : t.Fits width height) : t.lastColumn < width := by
  have hw := h.width_eq
  have hpos := h.width_pos
  simp only [lastColumn]
  omega

theorem Fits.lastRow_lt (h : t.Fits width height) : t.lastRow < height := by
  have hh := h.height_eq
  have hpos := h.two_rows
  simp only [lastRow]
  omega

theorem Fits.rowBounds_lt (h : t.Fits width height) :
    t.rowBounds.1 < height ∧ t.rowBounds.2 < height := by
  obtain ⟨htop, hbottom⟩ := h.margins
  have hlast := h.lastRow_lt
  simp only [rowBounds]
  split
  · exact ⟨Nat.zero_lt_of_lt hlast, hlast⟩
  · exact ⟨Nat.lt_trans htop hbottom, hbottom⟩

end Terminal

end TermReplay

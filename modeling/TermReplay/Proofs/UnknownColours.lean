import TermReplay.Proofs.DeterminedRows
import TermReplay.Proofs.RowRuns
import TermReplay.Proofs.ScrollConservation
import TermReplay.Proofs.SnapshotRoundTrip

/-!
Colours that come from outside. A snapshot is accepted if its parts fit together, whatever the
colours in it are. One colour outside of the palette, in a cell of either screen, in the cursor or
in any saved one, is enough for a run in which a row is told with a question mark in it.
-/

namespace TermReplay

theorem RowImage.ofCells_inPalette_iff (cells : List Cell) (size : LineSize) :
    (ofCells cells size).InPalette ↔ ∀ c ∈ cells, c.pen.InPalette := by
  have hpart (part : Cell → UInt8) :
      '?' ∉ (String.ofList (cells.map fun c => colour (part c))).toList ↔
        ∀ c ∈ cells, part c ≤ 9 := by
    simp only [String.toList_ofList, List.mem_map, colour_eq_unknown_iff, not_exists, not_and,
      Decidable.not_not]
  rw [RowImage.InPalette, ofCells, hpart, hpart, ← forall₂_and]
  rfl

namespace Grid

variable {g : Grid} {width height : Nat}

theorem Fits.inPalette_iff (h : g.Fits width height) :
    g.InPalette ↔ ∀ x y, x < width → y < height → (g.cell x y).pen.InPalette := by
  refine ⟨fun hg x y _ _ => inPalette_iff_cells.mp hg x y, fun hcells => ?_⟩
  have hposition {i : Nat} (hi : i < width * height) : (g.cellAt i).pen.InPalette := by
    have hw : 0 < width := Nat.pos_of_mul_pos_right (Nat.zero_lt_of_lt hi)
    have hcell := hcells (i % width) (i / width) (Nat.mod_lt i hw) (Nat.div_lt_of_lt_mul hi)
    rwa [Grid.cell, index, h.width_eq, Nat.mod_add_div'] at hcell
  constructor
  · intro c hc
    obtain ⟨i, hi, rfl⟩ := Array.getElem_of_mem hc
    have hcell := (hposition (h.foreground ▸ hi)).1
    rwa [cellAt, Array.getElem?_eq_getElem hi] at hcell
  · intro c hc
    obtain ⟨i, hi, rfl⟩ := Array.getElem_of_mem hc
    have hcell := (hposition (h.background ▸ hi)).2
    rwa [cellAt, Array.getElem?_eq_getElem hi] at hcell

end Grid

namespace Terminal

variable {t : Terminal}

/-- After some commands a row is told with a colour that has no digit. -/
def TellsUnknown (t : Terminal) : Prop :=
  ∃ commands, ∃ n ∈ (obeyAll commands t).notices, ¬n.InPalette

/-- A terminal that tells an unknown colour after some commands can tell it before them. -/
theorem TellsUnknown.of_obeyAll (commands : List Command)
    (h : (obeyAll commands t).terminal.TellsUnknown) : t.TellsUnknown := by
  obtain ⟨more, n, hn, hunknown⟩ := h
  refine ⟨commands ++ more, n, ?_, hunknown⟩
  rw [obeyAll, each_append, Reaction.andThen_notices]
  exact List.mem_append_right _ hn

theorem WellFormed.obeyAll (h : t.WellFormed) (commands : List Command) :
    (obeyAll commands t).terminal.WellFormed :=
  each_keeps (P := WellFormed) (fun c _ ht => ht.obey c) commands h

theorem min_one_regionHeight (t : Terminal) : min 1 t.regionHeight = 1 :=
  Nat.min_eq_left (Nat.le_add_left ..)

/-- Each row of the region leaves in its turn when the region scrolls row by row. -/
theorem scrolls_tell_region (h : t.WellFormed) {i : Nat} {line : Line}
    (hl : t.region[i]? = some line) :
    .scrolled line.image 1 ∈ (obeyAll (.replicate (i + 1) (.scrollUp 1)) t).notices := by
  induction i generalizing t with
  | zero =>
      have hfirst : line ∈ t.region.take 1 :=
        List.mem_of_getElem? ((List.getElem?_take_of_lt Nat.one_pos).trans hl)
      have htold : .scrolled line.image 1 ∈ (t.scrollUp 1).notices := by
        rw [(scrollUp_draws h 1).notices_eq, min_one_regionHeight]
        exact List.mem_append_left _ (List.mem_map_of_mem hfirst)
      exact List.mem_append_left _ htold
  | succ i ih =>
      have hup := scrollUp_draws h 1
      rw [min_one_regionHeight] at hup
      have hregion := Fits.region_of_table h hup.margins (Fits.length_up h (Nat.le_add_left ..))
        hup.table_eq
      have hnext : (t.scrollUp 1).terminal.region[i]? = some line := by
        have hin : i < (t.region.drop 1).length := by
          have := (List.getElem?_eq_some_iff.mp hl).1
          rw [List.length_drop]
          omega
        rw [hregion, List.getElem?_append_left hin, List.getElem?_drop, Nat.add_comm 1 i, hl]
      exact List.mem_append_right _ (ih (hup.wellFormed h) hnext)

theorem marginsFor_none {height : Nat} (hh : 2 ≤ height) :
    marginsFor height none none = Margins.full height := by
  obtain ⟨n, rfl⟩ := Nat.exists_eq_add_of_le' hh
  cases n <;> simp [marginsFor, Margins.full]

/-- The whole of one screen, as the region on display. -/
theorem region_whole (h : t.WellFormed) (kind : ScreenKind) :
    (obeyAll [.mode (.screen kind), .resetMargins] t).terminal.region = (t.grid kind).table := by
  have hh := Fits.two_rows h
  have hlength := (Fits.grid h kind).length_table
  show (t.grid kind).table.extract (marginsFor t.height none none).top
    ((marginsFor t.height none none).bottom + 1) = (t.grid kind).table
  rw [marginsFor_none hh, List.extract_eq_take_drop]
  refine List.take_of_length_le ?_
  simp only [Margins.full, List.drop_zero]
  omega

/-- A cell is shown when its row leaves. -/
theorem tellsUnknown_of_cell (h : t.WellFormed) {kind : ScreenKind} {x y : Nat} (hx : x < t.width)
    (hy : y < t.height) (hcell : ¬((t.grid kind).cell x y).pen.InPalette) : t.TellsUnknown := by
  let start : List Command := [.mode (.screen kind), .resetMargins]
  have hg := Fits.grid h kind
  have hrow : (obeyAll start t).terminal.region[y]? =
      some ⟨(t.grid kind).row y, (t.grid kind).lineSize y⟩ := by
    rw [region_whole h kind, hg.getElem?_table hy]
  refine .of_obeyAll start
    ⟨_, _, scrolls_tell_region (h.obeyAll start) hrow, fun himage => hcell ?_⟩
  have hcells := (RowImage.ofCells_inPalette_iff ..).mp himage
  exact (hg.forall_mem_row y).mp hcells x hx

theorem tellsUnknown_of_grid (h : t.WellFormed) (kind : ScreenKind)
    (hg : ¬(t.grid kind).InPalette) : t.TellsUnknown := by
  rw [(Fits.grid h kind).inPalette_iff] at hg
  push Not at hg
  obtain ⟨x, y, hx, hy, hcell⟩ := hg
  exact tellsUnknown_of_cell h hx hy hcell

/-- A character is drawn with the pen of the cursor. -/
theorem pen_place (h : t.WellFormed) (hx : t.cursor.x < t.width) (char : Char) :
    ((t.place char).terminal.live.cell t.cursor.x t.cursor.y).pen = t.cursor.pen := by
  have hy := (Fits.cursor h).2
  have hlive := Fits.live h
  rw [place_terminal]
  show ((t.editLive _).live.cell _ _).pen = _
  rw [editLive_live, writing]
  split
  · rw [Grid.cell_insertCell hlive _ hx hy hx, if_pos ⟨rfl, Nat.le_refl _⟩, if_pos rfl]
  · rw [Grid.cell_set hlive _ hx hy hx, if_pos ⟨rfl, rfl⟩]

theorem tellsUnknown_of_cursor (h : t.WellFormed) (hc : ¬t.cursor.pen.InPalette) :
    t.TellsUnknown := by
  let front := t.moveTo 0 t.cursor.y
  have hfront : front.WellFormed := Fits.moveTo h (Nat.zero_le _) (Fits.cursor h).2
  have hroom : front.cursor.x < front.width := Fits.width_pos hfront
  let u := (front.place (front.designations.translate 'x')).terminal
  have hpen : (u.live.cell 0 t.cursor.y).pen = t.cursor.pen := pen_place hfront hroom _
  have hu : (obeyAll [.carriageReturn, .print "x"] t).terminal = u := by
    show (front.print (String.singleton 'x')).terminal = u
    rw [print_singleton, printChar_of_room hroom]
  have hformed := h.obeyAll [.carriageReturn, .print "x"]
  refine .of_obeyAll [.carriageReturn, .print "x"] ?_
  rw [hu] at hformed ⊢
  refine tellsUnknown_of_grid hformed u.modes.screen fun hg => hc ?_
  exact hpen ▸ Grid.inPalette_iff_cells.mp hg 0 t.cursor.y

/-- The saved cursors are taken off one by one. -/
theorem tellsUnknown_of_saved (h : t.WellFormed) {c : Cursor} (hc : c ∈ t.saved.entries)
    (hpen : ¬c.pen.InPalette) : t.TellsUnknown := by
  induction hsaved : t.saved.entries generalizing t with
  | nil =>
      rw [hsaved] at hc
      cases hc
  | cons newest rest ih =>
      have hpop : t.saved.pop? = some (newest, { t.saved with entries := rest }) := by
        rw [SavedCursors.pop?, hsaved]
      have hrestored : (obeyAll [.restoreCursor] t).terminal =
          { t with cursor := newest, saved := { t.saved with entries := rest } } :=
        congrArg Reaction.terminal (restoreCursor_of_pop hpop)
      have hafter := h.obeyAll [.restoreCursor]
      rw [hsaved] at hc
      refine .of_obeyAll [.restoreCursor] ?_
      rw [hrestored] at hafter ⊢
      obtain rfl | hc := List.mem_cons.mp hc
      · exact tellsUnknown_of_cursor hafter hpen
      · exact ih hafter hc rfl

/-- Every colour that has no digit can be brought to light. -/
theorem tells_palette_iff (h : t.WellFormed) :
    (∀ commands, ∀ n ∈ (obeyAll commands t).notices, n.InPalette) ↔ t.InPalette := by
  refine ⟨fun htold => ?_, fun hp commands => (hp.obeyAll commands).notices⟩
  have hknown : ¬t.TellsUnknown := fun ⟨commands, n, hn, hunknown⟩ =>
    hunknown (htold commands n hn)
  constructor
  · exact fun kind => by_contra fun hg => hknown (tellsUnknown_of_grid h kind hg)
  · exact by_contra fun hc => hknown (tellsUnknown_of_cursor h hc)
  · exact fun c hc => by_contra fun hpen => hknown (tellsUnknown_of_saved h hc hpen)

/-- Taking over a state tells of no row. -/
theorem replaceWith_inPalette (t next : Terminal) :
    ∀ n ∈ (t.replaceWith next).notices, n.InPalette := by
  intro n hn
  obtain rfl | hn := List.mem_cons.mp hn
  · trivial
  · obtain rfl := List.mem_singleton.mp hn
    trivial

/-- The parts of an accepted snapshot fit together, but its colours are not looked at: that no row
is ever told with an unknown colour after it was taken over is so exactly if all of its colours,
in the cells of both screens, in the cursor and in the saved ones, are in the palette. -/
theorem snapshot_tells_palette_iff {text : String} (hs : ofSnapshot text = .ok t)
    (before : Terminal) :
    t.WellFormed ∧
      ((∀ commands, ∀ n ∈ ((before.replaceWith t).andThen (obeyAll commands)).notices,
        n.InPalette) ↔ t.InPalette) := by
  have h := wellFormed_of_snapshot hs
  refine ⟨h, Iff.trans ?_ (tells_palette_iff h)⟩
  refine forall_congr' fun commands => ⟨fun htold n hn => ?_, fun htold n hn => ?_⟩
  · exact htold n (List.mem_append_right _ hn)
  · obtain hn | hn := List.mem_append.mp hn
    · exact replaceWith_inPalette before t n hn
    · exact htold n hn

def spotted : Terminal := (initial 2 2 1).editLive (·.set 0 0 { pen := { foreground := 10 } })

theorem spotted_accepted : ofSnapshot spotted.toSnapshot = .ok spotted := by
  have hstart : (initial 2 2 1).WellFormed := initial_fits (by decide) (by decide)
  have hformed : spotted.WellFormed := Fits.editLive hstart fun _ hg => hg.set _ _ _
  exact hformed.ofSnapshot_eq (by decide) (by decide)

theorem spotted_tells_palette_iff :
    spotted.WellFormed ∧
      ((∀ commands, ∀ n ∈ (((initial 4 2 1).replaceWith spotted).andThen
        (obeyAll commands)).notices, n.InPalette) ↔ spotted.InPalette) :=
  snapshot_tells_palette_iff spotted_accepted _

/-- The snapshot is accepted, and two line feeds tell the row with a question mark. -/
theorem accepted_with_unknown_colour :
    ofSnapshot spotted.toSnapshot = .ok spotted ∧ ¬spotted.InPalette ∧
      ∃ n ∈ (obeyAll [.lineFeed, .lineFeed] spotted).notices, ¬n.InPalette := by
  refine ⟨spotted_accepted, fun h => ?_, ?_⟩
  · exact absurd (Grid.inPalette_iff_cells.mp (h.grids .primary) 0 0) (by decide)
  · refine ⟨.scrolled ⟨"  ", "FF", "FF", "TT", "FF", "?7", "00", .single⟩ 1, by decide, ?_⟩
    exact fun h => h.1 (by decide)

end Terminal

end TermReplay

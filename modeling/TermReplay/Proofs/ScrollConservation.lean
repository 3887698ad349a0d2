import TermReplay.Proofs.Drawing
import TermReplay.Proofs.FullScreen
import TermReplay.Proofs.PrintReports
import TermReplay.Proofs.Reachability
import TermReplay.Proofs.TableShifts

/-!
Scrolling conserves rows. It is one shift of the rows of the region, however far it goes, and each
row that leaves is told before it is gone, in the order in which the rows leave; so the rows that
were told and the rows that stay are the region that was.
-/

namespace TermReplay.Terminal

variable {t : Terminal} {width height : Nat}

def region (t : Terminal) : List Line :=
  t.live.table.extract t.margins.top (t.margins.bottom + 1)

/-- The rows on display with other rows in the scroll region. -/
def tableWith (t : Terminal) (rows : List Line) : List Line :=
  t.live.table.take t.margins.top ++ rows ++ t.live.table.drop (t.margins.bottom + 1)

/-- What is told of the region once it was scrolled; scrolling by nothing tells nothing. -/
def scrollTold (t : Terminal) (count : Nat) : List Notice :=
  if count = 0 then [] else t.wholeRows (rowsUpTo t.margins.top (t.margins.bottom + 1))

theorem scroll_eq (remove insert : Nat) (direction : Int) (count : Nat) (t : Terminal) :
    (if count = 0 then t.quietly
      else (cycleRows remove insert direction (min count t.regionHeight) t).andThen
        tellingRegion) =
      (t.editLive (Nat.repeat (·.cycleRows remove insert) (min count t.regionHeight))).telling
        ((cycleRows remove insert direction (min count t.regionHeight) t).notices ++
          t.scrollTold count) := by
  rw [scrollTold]
  split
  · next hcount =>
      rw [hcount, Nat.zero_min]
      exact (congrArg quietly (editLive_id t)).symm
  · exact scrolling_eq ..

/-- Rows that leave one after the other are told in that order. `Q` holds of a terminal and the
rows that leave it next. -/
theorem cycleRows_notices {remove insert : Nat} {direction : Int}
    {Q : Terminal → List Line → Prop}
    (hstep : ∀ t line rest, Q t (line :: rest) → t.live.rowImage remove = line.image ∧
      Q (t.editLive (·.cycleRows remove insert)) rest)
    {rows : List Line} (h : Q t rows) :
    (cycleRows remove insert direction rows.length t).notices =
      rows.map fun line => .scrolled line.image direction := by
  induction rows generalizing t with
  | nil => rfl
  | cons line rest ih =>
      obtain ⟨himage, hrest⟩ := hstep t line rest h
      rw [List.length_cons, cycleRows, Reaction.andThen_notices, telling_notices,
        telling_terminal, ih hrest, himage]
      rfl

namespace Fits

theorem regionHeight_eq (h : t.Fits width height) :
    t.regionHeight = t.margins.bottom + 1 - t.margins.top := by
  have htop := h.margins.1
  rw [regionHeight]
  omega

theorem length_region (h : t.Fits width height) : t.region.length = t.regionHeight := by
  obtain ⟨htop, hbottom⟩ := h.margins
  rw [region, List.extract_eq_take_drop, List.length_take, List.length_drop, h.live.length_table,
    h.regionHeight_eq]
  omega

/-- The rows of the region, as they are reported. -/
theorem rowImage_region (h : t.Fits width height) {i : Nat} {line : Line}
    (hl : t.region[i]? = some line) : t.live.rowImage (t.margins.top + i) = line.image := by
  rw [region, List.extract_eq_take_drop, List.getElem?_take] at hl
  split at hl
  · rw [List.getElem?_drop] at hl
    have hy : t.margins.top + i < height :=
      h.live.length_table ▸ (List.getElem?_eq_some_iff.mp hl).1
    rw [h.live.getElem?_table hy, Option.some.injEq] at hl
    rw [h.live.rowImage_eq hy, ← hl]
    rfl
  · cases hl

theorem region_of_table (h : t.Fits width height) {u : Terminal} (hm : u.margins = t.margins)
    {rows : List Line} (hrows : rows.length = t.regionHeight)
    (hu : u.live.table = t.tableWith rows) : u.region = rows := by
  obtain ⟨htop, hbottom⟩ := h.margins
  have hfront : (t.live.table.take t.margins.top).length = t.margins.top := by
    rw [List.length_take, h.live.length_table]
    omega
  rw [region, hm, hu]
  refine Shift.extract_append hfront ?_ _
  rw [hrows, h.regionHeight_eq]
  omega

theorem cycleUp (h : t.Fits width height) {g : Grid} (hg : g.Fits width height) :
    (g.cycleRows t.margins.top t.margins.bottom).Fits width height :=
  hg.cycleRows (Nat.lt_trans h.margins.1 h.margins.2) h.margins.2

theorem cycleDown (h : t.Fits width height) {g : Grid} (hg : g.Fits width height) :
    (g.cycleRows t.margins.bottom t.margins.top).Fits width height :=
  hg.cycleRows h.margins.2 (Nat.lt_trans h.margins.1 h.margins.2)

theorem table_up (h : t.Fits width height) {k : Nat} (hk : k ≤ t.regionHeight) :
    (Nat.repeat (·.cycleRows t.margins.top t.margins.bottom) k t.live).table =
      t.tableWith (t.region.drop k ++ .replicate k (.blank width)) := by
  obtain ⟨htop, hbottom⟩ := h.margins
  have htable := h.live.table_cycleRows_up (Nat.le_of_lt htop) hbottom k
  rw [← h.regionHeight_eq, Nat.min_eq_left hk] at htable
  have hlength : min k t.region.length = k := Nat.min_eq_left (h.length_region ▸ hk)
  rw [htable, Shift.within, ← region, Shift.out, hlength, tableWith]

theorem table_down (h : t.Fits width height) {k : Nat} (hk : k ≤ t.regionHeight) :
    (Nat.repeat (·.cycleRows t.margins.bottom t.margins.top) k t.live).table =
      t.tableWith (.replicate k (.blank width) ++ t.region.take (t.regionHeight - k)) := by
  obtain ⟨htop, hbottom⟩ := h.margins
  have htable := h.live.table_cycleRows_down (Nat.le_of_lt htop) hbottom k
  rw [← h.regionHeight_eq, Nat.min_eq_left hk] at htable
  have hlength : min k t.region.length = k := Nat.min_eq_left (h.length_region ▸ hk)
  rw [htable, Shift.within, ← region, Shift.into_eq, hlength, h.length_region, tableWith]

theorem length_up (h : t.Fits width height) {k : Nat} (hk : k ≤ t.regionHeight) :
    (t.region.drop k ++ .replicate k (Line.blank width)).length = t.regionHeight := by
  rw [List.length_append, List.length_drop, List.length_replicate, h.length_region]
  exact Nat.sub_add_cancel hk

theorem length_down (h : t.Fits width height) {k : Nat} (hk : k ≤ t.regionHeight) :
    (.replicate k (Line.blank width) ++ t.region.take (t.regionHeight - k)).length =
      t.regionHeight := by
  rw [List.length_append, List.length_take, List.length_replicate, h.length_region]
  omega

theorem region_up (h : t.Fits width height) {k : Nat} (hk : k ≤ t.regionHeight) :
    (t.editLive (Nat.repeat (·.cycleRows t.margins.top t.margins.bottom) k)).region =
      t.region.drop k ++ .replicate k (.blank width) :=
  h.region_of_table (editLive_margins ..) (h.length_up hk)
    ((congrArg Grid.table (editLive_live ..)).trans (h.table_up hk))

theorem region_down (h : t.Fits width height) {k : Nat} (hk : k ≤ t.regionHeight) :
    (t.editLive (Nat.repeat (·.cycleRows t.margins.bottom t.margins.top) k)).region =
      .replicate k (.blank width) ++ t.region.take (t.regionHeight - k) :=
  h.region_of_table (editLive_margins ..) (h.length_down hk)
    ((congrArg Grid.table (editLive_live ..)).trans (h.table_down hk))

/-- As the region goes up, the rows still to leave are the first ones of it. -/
theorem notices_up (h : t.Fits width height) {k : Nat} (hk : k ≤ t.regionHeight) :
    (Terminal.cycleRows t.margins.top t.margins.bottom 1 k t).notices =
      (t.region.take k).map fun line => Notice.scrolled line.image 1 := by
  have hlength : (t.region.take k).length = k := List.length_take_of_le (h.length_region ▸ hk)
  conv_lhs => rw [← hlength]
  refine cycleRows_notices (Q := fun u rows =>
    u.Fits width height ∧ u.margins = t.margins ∧ rows <+: u.region) ?_
    ⟨h, rfl, List.take_prefix ..⟩
  rintro u line rest ⟨hu, hm, below, hbelow⟩
  have hedit : (u.editLive (·.cycleRows t.margins.top t.margins.bottom)).Fits width height :=
    hu.editLive fun _ hg => h.cycleUp hg
  have hfirst : u.region[0]? = some line := by rw [← hbelow]; rfl
  have hregion := hu.region_up (Nat.succ_pos _)
  rw [← hbelow, hm] at hregion
  refine ⟨hm ▸ hu.rowImage_region hfirst, hedit, (editLive_margins ..).trans hm,
    below ++ [.blank width], ?_⟩
  rw [← List.append_assoc]
  exact hregion.symm

/-- As the region goes down, the rows still to leave are the last ones of it. -/
theorem notices_down (h : t.Fits width height) {k : Nat} (hk : k ≤ t.regionHeight) :
    (Terminal.cycleRows t.margins.bottom t.margins.top (-1) k t).notices =
      (t.region.reverse.take k).map fun line => Notice.scrolled line.image (-1) := by
  have hlength : (t.region.reverse.take k).length = k :=
    List.length_take_of_le (by rw [List.length_reverse, h.length_region]; exact hk)
  conv_lhs => rw [← hlength]
  refine cycleRows_notices (Q := fun u rows =>
    u.Fits width height ∧ u.margins = t.margins ∧ rows.reverse <:+ u.region) ?_
    ⟨h, rfl, List.reverse_prefix.mp (by rw [List.reverse_reverse]; exact List.take_prefix ..)⟩
  rintro u line rest ⟨hu, hm, above, habove⟩
  have hedit : (u.editLive (·.cycleRows t.margins.bottom t.margins.top)).Fits width height :=
    hu.editLive fun _ hg => h.cycleDown hg
  rw [List.reverse_cons, ← List.append_assoc] at habove
  have hstay : (above ++ rest.reverse).length = u.regionHeight - 1 := by
    have hlength := congrArg List.length habove
    rw [List.length_append, List.length_singleton, hu.length_region] at hlength
    exact Nat.eq_sub_of_add_eq hlength
  have hlast : u.region[u.regionHeight - 1]? = some line := by
    rw [← hstay, ← habove, List.getElem?_concat_length]
  have himage := hu.rowImage_region hlast
  have hindex : u.margins.top + (u.regionHeight - 1) = u.margins.bottom :=
    Nat.add_sub_cancel' (Nat.le_of_lt hu.margins.1)
  have hregion := hu.region_down (Nat.succ_pos _)
  rw [← habove, List.take_left' hstay, hm] at hregion
  rw [hindex, hm] at himage
  exact ⟨himage, hedit, (editLive_margins ..).trans hm, .blank width :: above, hregion.symm⟩

end Fits

theorem scrollUp_draws (h : t.WellFormed) (n : Nat) :
    (t.scrollUp n).Draws t
      (t.tableWith (t.region.drop (min n t.regionHeight) ++
        .replicate (min n t.regionHeight) (.blank t.width)))
      ((t.region.take (min n t.regionHeight)).map (fun line => .scrolled line.image 1) ++
        t.scrollTold n) := by
  have hk := Nat.min_le_right n t.regionHeight
  rw [scrollUp, scroll_eq, Fits.notices_up h hk]
  exact .of_edit (repeat_fits (fun _ hg => Fits.cycleUp h hg) _ (Fits.live h))
    (Fits.table_up h hk)

theorem scrollDown_draws (h : t.WellFormed) (n : Nat) :
    (t.scrollDown n).Draws t
      (t.tableWith (.replicate (min n t.regionHeight) (.blank t.width) ++
        t.region.take (t.regionHeight - min n t.regionHeight)))
      ((t.region.reverse.take (min n t.regionHeight)).map
          (fun line => .scrolled line.image (-1)) ++
        t.scrollTold n) := by
  have hk := Nat.min_le_right n t.regionHeight
  rw [scrollDown, scroll_eq, Fits.notices_down h hk]
  exact .of_edit (repeat_fits (fun _ hg => Fits.cycleDown h hg) _ (Fits.live h))
    (Fits.table_down h hk)

/-- The region after a scroll up and a scroll down by the same count. -/
theorem region_up_then_down (h : t.WellFormed) (n : Nat) :
    ((t.scrollUp n).terminal.scrollDown n).terminal.region =
      .replicate (min n t.regionHeight) (.blank t.width) ++
        t.region.drop (min n t.regionHeight) := by
  have hk := Nat.min_le_right n t.regionHeight
  have hup := scrollUp_draws h n
  have hu := hup.wellFormed h
  have hdown := scrollDown_draws hu n
  have hheight : (t.scrollUp n).terminal.regionHeight = t.regionHeight := by
    rw [regionHeight, regionHeight, hup.margins]
  have hregion := Fits.region_of_table h hup.margins (Fits.length_up h hk) hup.table_eq
  have hstay : (t.region.drop (min n t.regionHeight)).length =
      t.regionHeight - min n t.regionHeight := by
    rw [List.length_drop, Fits.length_region h]
  rw [Fits.region_of_table hu hdown.margins (Fits.length_down hu (Nat.min_le_right ..))
    hdown.table_eq, hheight, hup.width, hregion, List.take_left' hstay]

/-- A scroll by `n` shifts the region by `n` rows, or by all of them. The rows that leave are told
in the order in which they leave, blank rows come in on the other side, and nothing but the region
of the screen on display is changed. So a scroll up is undone by a scroll down exactly if the rows
that left were blank and of single size. -/
theorem scrolling_conserves_rows (h : t.WellFormed) (n : Nat) :
    let k := min n t.regionHeight
    let blanks := List.replicate k (Line.blank t.width)
    t.region.length = t.regionHeight ∧
      (t.obey (.scrollUp n)).Draws t (t.tableWith (t.region.drop k ++ blanks))
        ((t.region.take k).map (fun line => .scrolled line.image 1) ++ t.scrollTold n) ∧
      (t.obey (.scrollDown n)).Draws t
        (t.tableWith (blanks ++ t.region.take (t.regionHeight - k)))
        ((t.region.reverse.take k).map (fun line => .scrolled line.image (-1)) ++
          t.scrollTold n) ∧
      (((t.obey (.scrollUp n)).terminal.obey (.scrollDown n)).terminal.region = t.region ↔
        ∀ line ∈ t.region.take k, line = .blank t.width) := by
  intro k blanks
  have hlength : (t.region.take k).length = k :=
    List.length_take_of_le (Fits.length_region h ▸ Nat.min_le_right ..)
  refine ⟨Fits.length_region h, scrollUp_draws h n, scrollDown_draws h n, ?_⟩
  calc ((t.obey (.scrollUp n)).terminal.obey (.scrollDown n)).terminal.region = t.region
      ↔ blanks ++ t.region.drop k = t.region.take k ++ t.region.drop k := by
        rw [List.take_append_drop]
        exact Eq.congr_left (region_up_then_down h n)
    _ ↔ t.region.take k = blanks := by rw [List.append_cancel_right_eq, eq_comm]
    _ ↔ ∀ line ∈ t.region.take k, line = .blank t.width := by
        rw [List.eq_replicate_iff, hlength, and_iff_right rfl]

/-- Three rows of five, one of them wide, scroll by more than there are of them, and all that
stood in them is lost. -/
theorem scrolling_by_more_than_the_region :
    let t := (obeyAll [.print "ab", .goto 2 1, .print "cd", .lineSize { width := .double },
      .goto 5 1, .print "ef", .margins (some 2) (some 4), .goto 3 1, .attribute 7, .print "ghi"]
      (initial 2 5 1)).terminal
    let k := min 9 t.regionHeight
    let blanks := List.replicate k (Line.blank t.width)
    (t.margins = ⟨1, 3⟩ ∧ ¬∀ line ∈ t.region, line = .blank t.width) ∧
      t.region.length = t.regionHeight ∧
      (t.obey (.scrollUp 9)).Draws t (t.tableWith (t.region.drop k ++ blanks))
        ((t.region.take k).map (fun line => .scrolled line.image 1) ++ t.scrollTold 9) ∧
      (t.obey (.scrollDown 9)).Draws t
        (t.tableWith (blanks ++ t.region.take (t.regionHeight - k)))
        ((t.region.reverse.take k).map (fun line => .scrolled line.image (-1)) ++
          t.scrollTold 9) ∧
      (((t.obey (.scrollUp 9)).terminal.obey (.scrollDown 9)).terminal.region = t.region ↔
        ∀ line ∈ t.region.take k, line = .blank t.width) := by
  intro t
  have hr : Reachable t :=
    each_keeps (fun c _ ht => .obey ht c) _
      (.create (show 2 * 5 ≤ Stored.wordLimit by decide) rfl)
  exact ⟨⟨rfl, by decide⟩, scrolling_conserves_rows hr.wellFormed 9⟩

end TermReplay.Terminal

import TermReplay.Proofs.ReportedChanges
import TermReplay.Watch.Repaint

/-!
Marks of the repaint watcher. A run of notices only widens the spans that are marked, and marks
every change that it tells of; taking hands out all marked spans, each of them in its row.
-/

namespace TermReplay

namespace Repaint

def Marked (p : Repaint) (row x : Nat) : Prop :=
  ∃ first last, p.rows[row]? = some (some (first, last)) ∧ first ≤ x ∧ x ≤ last

def MarkedRow (p : Repaint) (row : Nat) : Prop :=
  ∃ first last, p.rows[row]? = some (some (first, last))

/-- A watcher of a grid of the given size, all of whose spans lie in it. -/
structure Fits (p : Repaint) (width height : Nat) : Prop where
  width_eq : p.width = width
  rows : p.rows.size = height
  width_pos : 1 ≤ width
  spans : ∀ {row first last : Nat}, p.rows[row]? = some (some (first, last)) →
    first ≤ last ∧ last < width
  cursor : p.cursor.1 < width
  drawn : p.drawn.1 < width

variable {p : Repaint} {width height : Nat}

theorem getElem?_markAll (row : Nat) :
    p.markAll.rows[row]? = if row < p.rows.size then some (some (0, p.lastColumn)) else none :=
  Array.getElem?_replicate

theorem markAll_fits (h : p.Fits width height) : p.markAll.Fits width height where
  width_eq := h.width_eq
  rows := Array.size_replicate.trans h.rows
  width_pos := h.width_pos
  spans := by
    intro row first last hr
    have hw := h.width_eq
    have hpos := h.width_pos
    rw [getElem?_markAll, lastColumn] at hr
    split at hr <;> cases hr
    omega
  cursor := h.cursor
  drawn := h.drawn

theorem marked_markAll (h : p.Fits width height) {row x : Nat} (hx : x < width)
    (hr : row < height) : p.markAll.Marked row x := by
  refine ⟨0, p.lastColumn, ?_, Nat.zero_le x, ?_⟩
  · rw [getElem?_markAll, if_pos (h.rows ▸ hr)]
  · rw [lastColumn, h.width_eq]
    omega

theorem Marked.row {row x : Nat} (h : p.Marked row x) : p.MarkedRow row := by
  obtain ⟨first, last, hspan, -⟩ := h
  exact ⟨first, last, hspan⟩

/-- A watcher without marks, its cursor in the first cell. -/
theorem clean_fits (hw : 1 ≤ width) :
    (⟨width, Array.replicate height none, (0, 0), (0, 0)⟩ : Repaint).Fits width height where
  width_eq := rfl
  rows := Array.size_replicate
  width_pos := hw
  spans := by
    intro row first last hr
    rw [Array.getElem?_replicate] at hr
    split at hr <;> cases hr
  cursor := hw
  drawn := hw

theorem create_fits (hw : 1 ≤ width) : (create width height).Fits width height :=
  markAll_fits (clean_fits hw)

theorem marked_create {row x : Nat} (hx : x < width) (hr : row < height) :
    (create width height).Marked row x :=
  marked_markAll (clean_fits (Nat.one_le_of_lt hx)) hx hr

/-- A mark joins the span of its own row and leaves all others. -/
theorem getElem?_mark (row first last y : Nat) :
    (p.mark row first last).rows[y]? =
      if y = row then
        (p.rows[row]?).map fun span => some (join span first (min last p.lastColumn))
      else p.rows[y]? := by
  unfold mark
  cases hr : p.rows[row]? with
  | none =>
      by_cases hy : y = row
      · rw [if_pos hy, hy, Option.map_none]
        exact hr
      · rw [if_neg hy]
  | some span =>
      have hlt : row < p.rows.size := (Array.getElem?_eq_some_iff.mp hr).1
      by_cases hy : y = row
      · rw [if_pos hy, hy, Option.map_some]
        exact Array.getElem?_setIfInBounds_self_of_lt hlt
      · rw [if_neg hy]
        exact Array.getElem?_setIfInBounds_ne (Ne.symm hy)

/-- Marking changes the marks only. -/
theorem mark_eq (row first last : Nat) :
    p.mark row first last = { p with rows := (p.mark row first last).rows } := by
  unfold mark
  split <;> rfl

theorem mark_size (row first last : Nat) :
    (p.mark row first last).rows.size = p.rows.size := by
  unfold mark
  split
  · rfl
  · exact Array.size_setIfInBounds

theorem mark_fits (h : p.Fits width height) (row : Nat) {first last : Nat} (hf : first ≤ last)
    (hl : last < width) : (p.mark row first last).Fits width height := by
  rw [mark_eq]
  refine { h with rows := (mark_size ..).trans h.rows, spans := ?_ }
  intro y lo hi hy
  have hw := h.width_eq
  rw [getElem?_mark, lastColumn] at hy
  split at hy
  · obtain ⟨span, hspan, heq⟩ := Option.map_eq_some_iff.mp hy
    obtain _ | ⟨first', last'⟩ := span
    · cases heq
      omega
    · have hold := h.spans hspan
      cases heq
      omega
  · exact h.spans hy

/-- All columns of a mark are marked, if its row and its columns are on the grid. -/
theorem marked_mark (h : p.Fits width height) {row first last x : Nat} (hr : row < height)
    (hl : last < width) (hf : first ≤ x) (hx : x ≤ last) :
    (p.mark row first last).Marked row x := by
  have hw := h.width_eq
  obtain ⟨span, hspan⟩ : ∃ span, p.rows[row]? = some span :=
    ⟨_, Array.getElem?_eq_getElem (h.rows ▸ hr)⟩
  have hmark := getElem?_mark row first last row (p := p)
  rw [if_pos rfl, hspan, Option.map_some] at hmark
  obtain _ | ⟨lo, hi⟩ := span
  · exact ⟨_, _, hmark, hf, by rw [lastColumn]; omega⟩
  · exact ⟨_, _, hmark, by omega, by rw [lastColumn]; omega⟩

/-- Every span of the first watcher is part of a span of the second. -/
def Widens (p q : Repaint) : Prop :=
  ∀ row lo hi : Nat, p.rows[row]? = some (some (lo, hi)) →
    ∃ lo' hi', q.rows[row]? = some (some (lo', hi')) ∧ lo' ≤ lo ∧ hi ≤ hi'

theorem Widens.refl (p : Repaint) : p.Widens p :=
  fun _ _ _ hp => ⟨_, _, hp, Nat.le_refl _, Nat.le_refl _⟩

theorem Widens.trans {q r : Repaint} (hq : p.Widens q) (hr : q.Widens r) : p.Widens r := by
  intro row lo hi hp
  obtain ⟨lo', hi', hspan, hlo, hhi⟩ := hq row lo hi hp
  obtain ⟨lo'', hi'', hspan', hlo', hhi'⟩ := hr row lo' hi' hspan
  exact ⟨lo'', hi'', hspan', Nat.le_trans hlo' hlo, Nat.le_trans hhi hhi'⟩

theorem Widens.marked {q : Repaint} (hq : p.Widens q) {row x : Nat} (h : p.Marked row x) :
    q.Marked row x := by
  obtain ⟨lo, hi, hspan, hlo, hhi⟩ := h
  obtain ⟨lo', hi', hspan', hlo', hhi'⟩ := hq row lo hi hspan
  exact ⟨lo', hi', hspan', Nat.le_trans hlo' hlo, Nat.le_trans hhi hhi'⟩

theorem Widens.markedRow {q : Repaint} (hq : p.Widens q) {row : Nat} (h : p.MarkedRow row) :
    q.MarkedRow row := by
  obtain ⟨lo, hi, hspan⟩ := h
  obtain ⟨lo', hi', hspan', -⟩ := hq row lo hi hspan
  exact ⟨lo', hi', hspan'⟩

theorem mark_widens (row first last : Nat) : p.Widens (p.mark row first last) := by
  intro y lo hi hspan
  by_cases hy : y = row
  · subst hy
    refine ⟨min lo first, max hi (min last p.lastColumn), ?_, by omega, by omega⟩
    rw [getElem?_mark, if_pos rfl, hspan]
    rfl
  · refine ⟨lo, hi, ?_, Nat.le_refl _, Nat.le_refl _⟩
    rw [getElem?_mark, if_neg hy]
    exact hspan

theorem markAll_widens (h : p.Fits width height) : p.Widens p.markAll := by
  intro row lo hi hspan
  have hrow : row < p.rows.size := (Array.getElem?_eq_some_iff.mp hspan).1
  have hin := h.spans hspan
  have hw := h.width_eq
  refine ⟨0, p.lastColumn, ?_, Nat.zero_le lo, ?_⟩
  · rw [getElem?_markAll, if_pos hrow]
  · rw [lastColumn]
    omega

theorem watch_fits (h : p.Fits width height) {n : Notice} (hn : SpansInside [n] width) :
    (p.watch n).Fits width height := by
  have hw := h.width_eq
  have hpos := h.width_pos
  cases n with
  | change row first last =>
      obtain ⟨hf, hl⟩ := hn row first last (List.mem_singleton.mpr rfl)
      exact mark_fits h row hf hl
  | cursor x y => exact { h with cursor := by simp only [watch, lastColumn]; omega }
  | replaced => exact markAll_fits h
  | _ => exact h

theorem watch_widens (h : p.Fits width height) (n : Notice) : p.Widens (p.watch n) := by
  cases n with
  | change row first last => exact mark_widens row first last
  | replaced => exact markAll_widens h
  | _ => exact .refl p

/-- A run of notices keeps all marks and adds those of every change among them. -/
theorem watchAll (h : p.Fits width height) {notices : List Notice}
    (hs : SpansInside notices width) :
    (notices.foldl watch p).Fits width height ∧ p.Widens (notices.foldl watch p) ∧
      ∀ row first last, row < height → Notice.change row first last ∈ notices →
        ∀ x, first ≤ x → x ≤ last → (notices.foldl watch p).Marked row x := by
  induction notices generalizing p with
  | nil => exact ⟨h, .refl p, nofun⟩
  | cons n notices ih =>
      have hone : SpansInside [n] width := by
        intro row first last hm
        exact hs row first last (List.mem_singleton.mp hm ▸ List.mem_cons_self ..)
      have hrest : SpansInside notices width := fun row first last hm =>
        hs row first last (List.mem_cons_of_mem _ hm)
      obtain ⟨hfits, hwidens, htold⟩ := ih (watch_fits h hone) hrest
      refine ⟨hfits, (watch_widens h n).trans hwidens, ?_⟩
      intro row first last hrow hm x hx hx'
      obtain rfl | hm := List.mem_cons.mp hm
      · obtain ⟨-, hl⟩ := hs row first last (List.mem_cons_self ..)
        exact hwidens.marked (marked_mark h hrow hl hx hx')
      · exact htold row first last hrow hm x hx hx'

theorem markCursor_fits (h : p.Fits width height) : p.markCursor.Fits width height := by
  unfold markCursor
  split
  · exact h
  · have hmarks := mark_fits (mark_fits h p.cursor.2 (Nat.le_refl _) h.cursor) p.drawn.2
      (Nat.le_refl _) h.drawn
    exact { hmarks with drawn := h.cursor }

theorem markCursor_widens : p.Widens p.markCursor := by
  unfold markCursor
  split
  · exact .refl p
  · exact (mark_widens p.cursor.2 p.cursor.1 p.cursor.1).trans
      (mark_widens p.drawn.2 p.drawn.1 p.drawn.1)

theorem mem_spans {s : Span} : s ∈ p.spans ↔ p.rows[s.row]? = some (some (s.first, s.last)) := by
  simp only [spans, List.mem_filterMap, Prod.exists, List.mk_mem_zipIdx_iff_getElem?,
    Array.getElem?_toList, Option.map_eq_some_iff]
  constructor
  · rintro ⟨span, row, hrow, first, last, rfl, rfl⟩
    exact hrow
  · intro hs
    exact ⟨_, s.row, hs, s.first, s.last, rfl, rfl⟩

theorem take_fits (h : p.Fits width height) : p.take.2.Fits width height :=
  { markCursor_fits h with
    rows := Array.size_replicate.trans (markCursor_fits h).rows
    spans := by
      intro row first last hr
      simp only [take] at hr
      rw [Array.getElem?_replicate] at hr
      split at hr <;> cases hr }

/-- Every marked column is in a span that is taken. -/
theorem mem_take_of_marked {row x : Nat} (h : p.Marked row x) :
    ∃ s ∈ p.take.1, s.row = row ∧ s.first ≤ x ∧ x ≤ s.last := by
  obtain ⟨first, last, hspan, hx⟩ := markCursor_widens.marked h
  exact ⟨⟨row, first, last⟩, mem_spans.mpr hspan, rfl, hx⟩

theorem mem_take_of_markedRow {row : Nat} (h : p.MarkedRow row) :
    ∃ s ∈ p.take.1, s.row = row := by
  obtain ⟨first, last, hspan⟩ := markCursor_widens.markedRow h
  exact ⟨⟨row, first, last⟩, mem_spans.mpr hspan, rfl⟩

theorem take_inside (h : p.Fits width height) {s : Span} (hs : s ∈ p.take.1) :
    s.row < height ∧ s.first ≤ s.last ∧ s.last < width := by
  have hfits := markCursor_fits h
  have hspan := mem_spans.mp hs
  have hrow := (Array.getElem?_eq_some_iff.mp hspan).1
  exact ⟨hfits.rows ▸ hrow, hfits.spans hspan⟩

end Repaint

end TermReplay

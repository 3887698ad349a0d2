import Mathlib.Order.Bounds.Basic
import TermReplay.Proofs.CursorFollowed
import TermReplay.Proofs.DueColumns

/-!
What a taking hands out. Between takings each row keeps the smallest span around all that it was
asked for, and the cursor adds the cell it left and the one it entered. So a taking has one span
for each row that has anything to paint, in the order of the rows, and the span ends at the first
and at the last column that is due.
-/

namespace TermReplay

open RepaintStep (asked dueSpans AllDue Due)

/-- The span is the smallest one around all of the spans; there is none around no spans. -/
def Hull (spans : Set (Nat × Nat)) : Option (Nat × Nat) → Prop
  | none => spans = ∅
  | some (lo, hi) => IsLeast (Prod.fst '' spans) lo ∧ IsGreatest (Prod.snd '' spans) hi

namespace Hull

variable {spans : Set (Nat × Nat)}

theorem insert {span : Option (Nat × Nat)} (h : Hull spans span) (first last : Nat) :
    Hull (insert (first, last) spans) (some (Repaint.join span first last)) := by
  cases span with
  | none =>
      have hspans : spans = ∅ := h
      subst hspans
      simp [Hull, Repaint.join]
  | some span =>
      obtain ⟨lo, hi⟩ := span
      obtain ⟨hlo, hhi⟩ := h
      simp only [Hull, Repaint.join, Set.image_insert_eq, min_comm lo, max_comm hi]
      exact ⟨hlo.insert first, hhi.insert last⟩

theorem whole {last : Nat} (hmem : (0, last) ∈ spans) (hle : ∀ span ∈ spans, span.2 ≤ last) :
    Hull spans (some (0, last)) := by
  refine ⟨⟨⟨_, hmem, rfl⟩, fun _ _ => Nat.zero_le _⟩, ⟨⟨_, hmem, rfl⟩, ?_⟩⟩
  rintro _ ⟨span, hspan, rfl⟩
  exact hle span hspan

theorem exists_mem {lo hi : Nat} (h : Hull spans (some (lo, hi))) : ∃ last, (lo, last) ∈ spans := by
  obtain ⟨⟨first, last⟩, hspan, rfl⟩ := h.1.1
  exact ⟨last, hspan⟩

theorem le_of_forall_le {lo hi limit : Nat} (h : Hull spans (some (lo, hi)))
    (hle : ∀ span ∈ spans, span.2 ≤ limit) : hi ≤ limit := by
  obtain ⟨span, hspan, rfl⟩ := h.2.1
  exact hle span hspan

/-- A hull goes forward if the span that begins it does. -/
theorem forward {lo hi last : Nat} (h : Hull spans (some (lo, hi))) (hmem : (lo, last) ∈ spans)
    (hle : lo ≤ last) : lo ≤ hi :=
  Nat.le_trans hle (h.2.2 ⟨_, hmem, rfl⟩)

/-- The columns of the hull of spans that are not empty: the first and the last of all. -/
theorem columns {lo hi : Nat} (h : Hull spans (some (lo, hi)))
    (hspans : ∀ span ∈ spans, span.1 ≤ span.2) :
    IsLeast {x | ∃ span ∈ spans, span.1 ≤ x ∧ x ≤ span.2} lo ∧
      IsGreatest {x | ∃ span ∈ spans, span.1 ≤ x ∧ x ≤ span.2} hi := by
  obtain ⟨⟨⟨first, hfirst, rfl⟩, hlo⟩, ⟨⟨last, hlast, rfl⟩, hhi⟩⟩ := h
  refine ⟨⟨⟨first, hfirst, Nat.le_refl _, hspans first hfirst⟩, ?_⟩,
    ⟨⟨last, hlast, hspans last hlast, Nat.le_refl _⟩, ?_⟩⟩
  · rintro x ⟨span, hspan, hx, -⟩
    exact Nat.le_trans (hlo ⟨span, hspan, rfl⟩) hx
  · rintro x ⟨span, hspan, -, hx⟩
    exact Nat.le_trans hx (hhi ⟨span, hspan, rfl⟩)

end Hull

namespace Repaint

def step (p : Repaint) : RepaintStep → Repaint
  | .watch n => p.watch n
  | .take => p.take.2

def run (p : Repaint) (steps : List RepaintStep) : Repaint := steps.foldl step p

theorem run_concat (p : Repaint) (steps : List RepaintStep) (s : RepaintStep) :
    p.run (steps ++ [s]) = (p.run steps).step s :=
  List.foldl_concat ..

structure Hulls (p : Repaint) (width height : Nat) (spans : Nat → Set (Nat × Nat)) : Prop where
  width_eq : p.width = width
  size : p.rows.size = height
  rows : ∀ row, row < height → ∃ span, p.rows[row]? = some span ∧ Hull (spans row) span

/-- The state of a watcher that was created with the given size, after some steps. -/
structure Follows (p : Repaint) (width height : Nat) (steps : List RepaintStep) : Prop extends
    p.Hulls width height (asked width steps) where
  cursor : p.cursor = RepaintStep.cell width steps
  drawn : p.drawn = RepaintStep.drawn width steps

variable {p : Repaint} {width height : Nat} {spans : Nat → Set (Nat × Nat)}
  {steps : List RepaintStep}

/-- The cursor does not matter. -/
theorem Hulls.congr (h : p.Hulls width height spans) {q : Repaint}
    {others : Nat → Set (Nat × Nat)} (hwidth : q.width = p.width) (hrows : q.rows = p.rows)
    (hspans : ∀ row, spans row = others row) : q.Hulls width height others where
  width_eq := hwidth.trans h.width_eq
  size := by rw [hrows, h.size]
  rows := by
    rw [hrows, ← funext hspans]
    exact h.rows

/-- A mark adds a span to what was asked for in its row, and the hull follows. -/
theorem Hulls.mark (h : p.Hulls width height spans) (row first last : Nat) :
    (p.mark row first last).Hulls width height fun y =>
      {span | span ∈ spans y ∨ y = row ∧ span = (first, min last (width - 1))} := by
  have hwidth := h.width_eq
  rw [mark_eq]
  refine ⟨hwidth, (mark_size ..).trans h.size, ?_⟩
  intro y hy
  obtain ⟨span, hspan, hhull⟩ := h.rows y hy
  show ∃ span, (p.mark row first last).rows[y]? = some span ∧ _
  rw [getElem?_mark, lastColumn, hwidth]
  by_cases hrow : y = row
  · subst hrow
    rw [if_pos rfl, hspan, Option.map_some]
    refine ⟨_, rfl, ?_⟩
    have hins := hhull.insert first (min last (width - 1))
    rw [Set.insert_def] at hins
    simpa only [true_and, or_comm] using hins
  · rw [if_neg hrow]
    refine ⟨span, hspan, ?_⟩
    simp only [hrow, false_and, or_false]
    exact hhull

/-- Everything is asked for in every row. -/
theorem Hulls.markAll (h : p.Hulls width height spans) {others : Nat → Set (Nat × Nat)}
    (hmem : ∀ row, (0, width - 1) ∈ others row)
    (hle : ∀ row, ∀ span ∈ others row, span.2 ≤ width - 1) :
    p.markAll.Hulls width height others where
  width_eq := h.width_eq
  size := Array.size_replicate.trans h.size
  rows row hrow := by
    refine ⟨_, (getElem?_markAll row).trans (if_pos (h.size ▸ hrow)), ?_⟩
    rw [lastColumn, h.width_eq]
    exact .whole (hmem row) (hle row)

theorem create_follows (width height : Nat) : (create width height).Follows width height [] where
  toHulls := by
    have hclean : (⟨width, Array.replicate height none, (0, 0), (0, 0)⟩ : Repaint).Hulls width
        height fun _ => ∅ := by
      refine ⟨rfl, Array.size_replicate, ?_⟩
      intro row hrow
      exact ⟨none, Array.getElem?_replicate.trans (if_pos hrow), rfl⟩
    have hall : AllDue [] := .inl List.not_mem_nil
    exact hclean.markAll (fun _ => .inr ⟨hall, rfl⟩) (RepaintStep.asked_le width [])
  cursor := congrArg (·, 0) (Nat.zero_min _).symm
  drawn := congrArg (·, 0) (Nat.zero_min _).symm

theorem Follows.holds (h : p.Follows width height steps) :
    p.Holds (Notice.cursorAfter (0, 0) (RepaintStep.watched steps)) := by
  rw [Holds, lastColumn, h.width_eq]
  exact h.cursor

theorem watch_width (p : Repaint) (n : Notice) : (p.watch n).width = p.width := by
  cases n with
  | change row first last => rw [watch, mark_eq]
  | _ => rfl

/-- A watcher that is told of something follows the steps with this one more. -/
theorem Follows.watch (h : p.Follows width height steps) (n : Notice) :
    (p.watch n).Follows width height (steps ++ [.watch n]) where
  toHulls := by
    cases n with
    | change row first last =>
        refine (h.mark row first last).congr rfl rfl fun y => ?_
        ext span
        rw [RepaintStep.asked_watch]
        constructor
        · rintro (hold | ⟨rfl, rfl⟩)
          · exact .inl hold
          · exact .inr (.inl ⟨last, rfl, rfl⟩)
        · rintro (hold | ⟨last', hn, hspan⟩ | ⟨hn, -⟩)
          · exact .inl hold
          · cases hn
            exact .inr ⟨rfl, Prod.ext rfl hspan⟩
          · cases hn
    | replaced =>
        have hall : AllDue (steps ++ [.watch .replaced]) :=
          (RepaintStep.allDue_watch steps .replaced).mpr (.inr rfl)
        exact h.markAll (fun _ => .inr ⟨hall, rfl⟩) (RepaintStep.asked_le width _)
    | _ => exact h.congr rfl rfl (RepaintStep.asked_watch_other width steps rfl)
  cursor := by
    have hholds := h.holds.watch n
    rw [← Notice.cursorAfter_append, Holds, lastColumn, watch_width, h.width_eq] at hholds
    rw [hholds, RepaintStep.cell, RepaintStep.watched_concat]
    rfl
  drawn := by rw [watch_drawn, h.drawn, RepaintStep.drawn_watch]

/-- The cells of the cursor are marked when the spans are taken. -/
theorem Follows.markCursor (h : p.Follows width height steps) :
    p.markCursor.Hulls width height (dueSpans width steps) := by
  have hentered := Nat.min_eq_left (RepaintStep.cell_le width steps)
  have hleft := Nat.min_eq_left (RepaintStep.cell_le width (RepaintStep.untilTaken steps))
  rw [← RepaintStep.drawn] at hleft
  rw [Repaint.markCursor, h.cursor, h.drawn]
  split
  · next hstill =>
      refine h.congr rfl rfl fun row => ?_
      ext span
      exact (or_iff_left fun hmoved => hmoved.1 hstill).symm
  · next hmoved =>
      refine ((h.mark _ _ _).mark _ _ _).congr rfl rfl fun row => ?_
      ext span
      rw [hentered, hleft]
      exact or_assoc.trans (or_congr_right (and_iff_right hmoved).symm)

/-- A taking hands out the hulls and begins anew. -/
theorem Follows.take (h : p.Follows width height steps) :
    p.take.2.Follows width height (steps ++ [.take]) where
  toHulls := by
    have hmarks := h.markCursor
    refine ⟨hmarks.width_eq, Array.size_replicate.trans hmarks.size, ?_⟩
    intro row hrow
    rw [RepaintStep.asked_take]
    exact ⟨none, Array.getElem?_replicate.trans (if_pos (hmarks.size ▸ hrow)), rfl⟩
  cursor := by rw [RepaintStep.cell_take, ← h.cursor]; exact (markCursor_cursor p).1
  drawn := by rw [RepaintStep.drawn_take, ← h.cursor]; exact (markCursor_cursor p).2

/-- However notices and takings follow each other. The induction is from the end, since what is
asked for depends on the last taking. -/
theorem run_follows (width height : Nat) (steps : List RepaintStep) :
    ((create width height).run steps).Follows width height steps := by
  induction steps using List.reverseRecOn with
  | nil => exact create_follows width height
  | append_singleton steps s ih =>
      rw [run_concat]
      cases s with
      | watch n => exact ih.watch n
      | take => exact ih.take

theorem spans_ordered (p : Repaint) : p.spans.Pairwise fun s s' => s.row < s'.row := by
  have hrows : (p.rows.toList.zipIdx.map Prod.snd).Pairwise (· < ·) := by
    rw [List.zipIdx_map_snd]
    exact List.pairwise_lt_range'
  rw [spans, List.pairwise_filterMap]
  refine (List.pairwise_map.mp hrows).imp ?_
  rintro ⟨span, row⟩ ⟨span', row'⟩ hlt s hs s' hs'
  obtain ⟨_, -, rfl⟩ := Option.map_eq_some_iff.mp hs
  obtain ⟨_, -, rfl⟩ := Option.map_eq_some_iff.mp hs'
  exact hlt

/-- A span that is taken is the hull of the spans that are due in its row. -/
theorem Follows.hull_of_mem_take (h : p.Follows width height steps) {s : Span}
    (hs : s ∈ p.take.1) :
    s.row < height ∧ Hull (dueSpans width steps s.row) (some (s.first, s.last)) := by
  have hmarks := h.markCursor
  have hspan := mem_spans.mp hs
  have hrow : s.row < height := hmarks.size ▸ (Array.getElem?_eq_some_iff.mp hspan).1
  obtain ⟨span, hspan', hhull⟩ := hmarks.rows s.row hrow
  cases hspan.symm.trans hspan'
  exact ⟨hrow, hhull⟩

/-- A row in which a span is due has a span that is taken. -/
theorem Follows.exists_mem_take (h : p.Follows width height steps) {row : Nat}
    (hrow : row < height) {span : Nat × Nat} (hdue : span ∈ dueSpans width steps row) :
    ∃ s ∈ p.take.1, s.row = row := by
  obtain ⟨hull, hspan, hhull⟩ := h.markCursor.rows row hrow
  cases hull with
  | none =>
      have hnone : dueSpans width steps row = ∅ := hhull
      rw [hnone] at hdue
      exact hdue.elim
  | some hull => exact ⟨⟨row, hull.1, hull.2⟩, mem_spans.mpr hspan, rfl⟩

theorem isClean_iff (p : Repaint) :
    p.isClean = true ↔
      (∀ (row : Nat) span, p.rows[row]? = some span → span = none) ∧ p.cursor = p.drawn := by
  rw [isClean, Bool.and_eq_true, beq_iff_eq, Array.all_eq_true]
  refine and_congr_left fun _ => ⟨fun h row span hspan => ?_, fun h row hrow => ?_⟩
  · obtain ⟨hrow, rfl⟩ := Array.getElem?_eq_some_iff.mp hspan
    exact Option.isNone_iff_eq_none.mp (h row hrow)
  · exact Option.isNone_iff_eq_none.mpr (h row _ (Array.getElem?_eq_getElem hrow))

/-- The cursor has to be on a row of the watcher: one that moved beyond is not painted. -/
theorem Follows.isClean_iff_take_eq_nil (h : p.Follows width height steps)
    (hrow : (RepaintStep.cell width steps).2 < height) : p.isClean = true ↔ p.take.1 = [] := by
  rw [isClean_iff]
  constructor
  · rintro ⟨hrows, hstill⟩
    have hmark : p.markCursor = p := if_pos hstill
    rw [List.eq_nil_iff_forall_not_mem]
    intro s hs
    have hspan := mem_spans.mp hs
    rw [hmark] at hspan
    cases hrows _ _ hspan
  · intro hnil
    constructor
    · rintro row (_ | ⟨lo, hi⟩) hspan
      · rfl
      · obtain ⟨lo', hi', hspan', -⟩ := markCursor_widens row lo hi hspan
        have hs : ⟨row, lo', hi'⟩ ∈ p.take.1 := mem_spans.mpr hspan'
        rw [hnil] at hs
        cases hs
    · rw [h.cursor, h.drawn]
      by_contra hmoved
      obtain ⟨s, hs, -⟩ := h.exists_mem_take hrow (.inr ⟨hmoved, .inl ⟨rfl, rfl⟩⟩)
      rw [hnil] at hs
      cases hs

/-- However changes, cursors, replacements and takings follow each other on a watcher of their
size, the next taking has one span for each row with a column that is due, and no other, in the
order of the rows; each span is the smallest one around the columns that are due in its row; and
the watcher is clean exactly if nothing would be taken. -/
theorem spans_are_hulls {width height : Nat} (hw : 1 ≤ width) (hh : 1 ≤ height)
    {steps : List RepaintStep} (hs : ∀ n, .watch n ∈ steps → n.Inside width height) :
    let p := (create width height).run steps
    (p.take.1.Pairwise fun s s' => s.row < s'.row) ∧
      (∀ row, (∃ s ∈ p.take.1, s.row = row) ↔ ∃ x, Due width height steps row x) ∧
      (∀ s ∈ p.take.1, IsLeast {x | Due width height steps s.row x} s.first ∧
        IsGreatest {x | Due width height steps s.row x} s.last) ∧
      (p.isClean = true ↔ p.take.1 = []) := by
  intro p
  have hp : p.Follows width height steps := run_follows width height steps
  have hinside {row x : Nat} (hdue : Due width height steps row x) :=
    RepaintStep.Due.inside hs hw hh hdue
  have hforward : ∀ row, ∀ span ∈ dueSpans width steps row, span.1 ≤ span.2 :=
    RepaintStep.dueSpans_forward fun _ _ _ htold => (hs _ htold).2
  have hcolumns : ∀ row, row < height → {x | Due width height steps row x} =
      {x | ∃ span ∈ dueSpans width steps row, span.1 ≤ x ∧ x ≤ span.2} := by
    intro row hrow
    ext x
    exact (and_iff_left_of_imp fun hdue => (hinside hdue).2).symm.trans
      (RepaintStep.due_iff steps hw hrow)
  refine ⟨spans_ordered _, fun row => ⟨?_, ?_⟩, fun s hmem => ?_,
    hp.isClean_iff_take_eq_nil (RepaintStep.cell_row_lt hs hh)⟩
  · rintro ⟨s, hmem, rfl⟩
    obtain ⟨hrow, hhull⟩ := hp.hull_of_mem_take hmem
    obtain ⟨last, hspan⟩ := hhull.exists_mem
    have hdue := (RepaintStep.due_iff steps hw hrow).mpr
      ⟨_, hspan, Nat.le_refl s.first, hforward s.row _ hspan⟩
    exact ⟨s.first, hdue.1⟩
  · rintro ⟨x, hdue⟩
    obtain ⟨hrow, hx⟩ := hinside hdue
    obtain ⟨span, hspan, -⟩ := (RepaintStep.due_iff steps hw hrow).mp ⟨hdue, hx⟩
    exact hp.exists_mem_take hrow hspan
  · obtain ⟨hrow, hhull⟩ := hp.hull_of_mem_take hmem
    rw [hcolumns s.row hrow]
    exact hhull.columns (hforward s.row)

/-- Changes of one row, and a cursor behind the last column. -/
theorem spans_are_hulls_of_pending_wrap :
    let steps : List RepaintStep := [.take, .watch (.change 1 4 4), .watch (.change 1 2 3),
      .watch (.cursor 10 2), .watch (.change 1 7 8)]
    let p := (create 10 3).run steps
    (p.take.1.Pairwise fun s s' => s.row < s'.row) ∧
      (∀ row, (∃ s ∈ p.take.1, s.row = row) ↔ ∃ x, Due 10 3 steps row x) ∧
      (∀ s ∈ p.take.1, IsLeast {x | Due 10 3 steps s.row x} s.first ∧
        IsGreatest {x | Due 10 3 steps s.row x} s.last) ∧
      (p.isClean = true ↔ p.take.1 = []) :=
  spans_are_hulls (by decide) (by decide) (by simp [Notice.Inside])

example : ((create 10 3).run [.take, .watch (.change 1 4 4), .watch (.change 1 2 3),
    .watch (.cursor 10 2), .watch (.change 1 7 8)]).take.1 =
      [⟨0, 0, 0⟩, ⟨1, 2, 8⟩, ⟨2, 9, 9⟩] := by decide

end Repaint

end TermReplay

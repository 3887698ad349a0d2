import TermReplay.Proofs.SpanHulls

/-!
A watcher keeps the size it was created with, while the terminal it watches may become wider and
higher: a snapshot of any size can be taken over. The rows of what is taken exist, and the last
columns do too. The first column is not limited, and a span that begins behind the last column of
the watcher goes backwards.
-/

namespace TermReplay

open RepaintStep (Due dueSpans)

namespace Repaint

theorem run_append (p : Repaint) (steps more : List RepaintStep) :
    p.run (steps ++ more) = (p.run steps).run more :=
  List.foldl_append

theorem run_watch (p : Repaint) (notices : List Notice) :
    p.run (notices.map .watch) = notices.foldl watch p :=
  List.foldl_map

end Repaint

namespace Display

def shown (d : Display) : Step → List RepaintStep
  | .obey c => (d.terminal.obey c).notices.map .watch
  | .thaw next => (d.terminal.replaceWith next).notices.map .watch
  | .take => [.take]

def shownIn (d : Display) : List Step → List RepaintStep
  | [] => []
  | s :: steps => d.shown s ++ (d.step s).shownIn steps

theorem step_repaint (d : Display) (s : Step) :
    (d.step s).repaint = d.repaint.run (d.shown s) := by
  cases s with
  | obey c => exact (d.repaint.run_watch _).symm
  | thaw next => exact (d.repaint.run_watch _).symm
  | take => rfl

theorem run_repaint (d : Display) (steps : List Step) :
    (d.run steps).repaint = d.repaint.run (d.shownIn steps) := by
  induction steps generalizing d with
  | nil => rfl
  | cons s steps ih =>
      rw [shownIn, Repaint.run_append, ← step_repaint]
      exact ih (d.step s)

/-- A width that the terminal has at the start, or gets from a snapshot. -/
def HasWidth (d : Display) (steps : List Step) (width : Nat) : Prop :=
  width = d.terminal.width ∨ ∃ next, .thaw next ∈ steps ∧ width = next.width

theorem HasWidth.of_step {d : Display} (ht : d.terminal.WellFormed) {s : Step}
    {steps : List Step} {width : Nat} (h : (d.step s).HasWidth steps width) :
    d.HasWidth (s :: steps) width := by
  obtain hstart | ⟨next, hnext, hwidth⟩ := h
  · cases s with
    | obey c => exact .inl (hstart.trans (Terminal.Fits.obey ht c).width_eq)
    | thaw next => exact .inr ⟨next, List.mem_cons_self .., hstart⟩
    | take => exact .inl hstart
  · exact .inr ⟨next, List.mem_cons_of_mem _ hnext, hwidth⟩

theorem step_wellFormed {d : Display} (ht : d.terminal.WellFormed) {s : Step}
    (hs : ∀ next, s = .thaw next → next.WellFormed) : (d.step s).terminal.WellFormed := by
  cases s with
  | obey c => exact Terminal.WellFormed.obey ht c
  | thaw next => exact hs next rfl
  | take => exact ht

theorem shown_inside {d : Display} (ht : d.terminal.WellFormed) {s : Step}
    {row first last : Nat} (hn : .watch (.change row first last) ∈ d.shown s) :
    first ≤ last ∧ last < d.terminal.width := by
  cases s with
  | obey c =>
      obtain ⟨n, hn, hwatch⟩ := List.mem_map.mp hn
      cases hwatch
      exact (Terminal.Fits.obey_reports ht c).spans row first last hn
  | thaw next => simp [shown, Terminal.replaceWith, Terminal.tellingCursor] at hn
  | take => simp [shown] at hn

/-- The spans that are shown are those of a terminal of one of the widths. -/
theorem shownIn_inside {d : Display} (ht : d.terminal.WellFormed) {steps : List Step}
    (hs : ∀ next, .thaw next ∈ steps → next.WellFormed) {row first last : Nat}
    (hn : .watch (.change row first last) ∈ d.shownIn steps) :
    first ≤ last ∧ ∃ width, d.HasWidth steps width ∧ last < width := by
  induction steps generalizing d with
  | nil => cases hn
  | cons s steps ih =>
      obtain hn | hn := List.mem_append.mp hn
      · obtain ⟨hforward, hlast⟩ := shown_inside ht hn
        exact ⟨hforward, d.terminal.width, .inl rfl, hlast⟩
      · have hstep := step_wellFormed ht fun next hnext => hs next (hnext ▸ List.mem_cons_self ..)
        obtain ⟨hforward, width, hwidth, hlast⟩ :=
          ih hstep (fun next hnext => hs next (List.mem_cons_of_mem _ hnext)) hn
        exact ⟨hforward, width, hwidth.of_step ht, hlast⟩

end Display

namespace RepaintStep

variable {width height : Nat} {steps : List RepaintStep} {row : Nat}

/-- A hull goes forward exactly if a column that exists is due. -/
theorem hull_forward_iff (hw : 1 ≤ width) (hrow : row < height)
    (hs : ∀ row first last, .watch (.change row first last) ∈ steps → first ≤ last)
    {lo hi : Nat} (h : Hull (dueSpans width steps row) (some (lo, hi))) :
    lo ≤ hi ↔ ∃ x < width, Due width height steps row x := by
  constructor
  · intro hforward
    obtain ⟨last, hspan⟩ := h.exists_mem
    have hends : lo ≤ last := by
      obtain hends | ⟨last', htold, hlast⟩ := forward_or_told hspan
      · exact hends
      · have hhi := h.le_of_forall_le (dueSpans_le width steps row)
        have hfirst := hs _ _ _ htold
        omega
    obtain ⟨hdue, hx⟩ := (due_iff steps hw hrow).mpr ⟨_, hspan, Nat.le_refl lo, hends⟩
    exact ⟨lo, hx, hdue⟩
  · rintro ⟨x, hx, hdue⟩
    obtain ⟨span, hspan, hfirst, hlast⟩ := (due_iff steps hw hrow).mp ⟨hdue, hx⟩
    calc lo
      _ ≤ span.1 := h.1.2 ⟨span, hspan, rfl⟩
      _ ≤ x := hfirst
      _ ≤ span.2 := hlast
      _ ≤ hi := h.2.2 ⟨span, hspan, rfl⟩

end RepaintStep

namespace Display

/-- However commands, snapshots of any size and takings follow each other, every span of the next
taking has a row and a last column of the watcher. It goes forwards exactly if a column that the
watcher has is due in its row; and this is so for all spans if the terminal never was wider than
the watcher. -/
theorem spans_forward_iff {width height : Nat} (hw : 1 ≤ width) {t : Terminal}
    (ht : t.WellFormed) (mirror : Grid) {steps : List Step}
    (hs : ∀ next, .thaw next ∈ steps → next.WellFormed) :
    let d : Display := ⟨t, Repaint.create width height, mirror⟩
    let p := (d.run steps).repaint
    (∀ s ∈ p.take.1, s.row < height ∧ s.last < width ∧
      (s.first ≤ s.last ↔ ∃ x < width, Due width height (d.shownIn steps) s.row x)) ∧
      ((∀ w, d.HasWidth steps w → w ≤ width) → ∀ s ∈ p.take.1, s.first ≤ s.last) := by
  intro d p
  have hp : p.Follows width height (d.shownIn steps) := by
    rw [show p = (Repaint.create width height).run (d.shownIn steps) from run_repaint d steps]
    exact Repaint.run_follows width height _
  have htold {row first last : Nat} (hn : .watch (.change row first last) ∈ d.shownIn steps) :=
    shownIn_inside ht hs hn
  constructor
  · intro s hmem
    obtain ⟨hrow, hhull⟩ := hp.hull_of_mem_take hmem
    have hlast := hhull.le_of_forall_le (RepaintStep.dueSpans_le width _ s.row)
    exact ⟨hrow, by omega,
      RepaintStep.hull_forward_iff hw hrow (fun _ _ _ hn => (htold hn).1) hhull⟩
  · intro hwidths s hmem
    obtain ⟨-, hhull⟩ := hp.hull_of_mem_take hmem
    obtain ⟨last, hspan⟩ := hhull.exists_mem
    refine hhull.forward hspan (RepaintStep.dueSpans_forward ?_ s.row _ hspan)
    intro row first last hn
    obtain ⟨hforward, w, hwidth, hlast⟩ := htold hn
    exact ⟨hforward, Nat.lt_of_lt_of_le hlast (hwidths w hwidth)⟩

theorem moved_wellFormed : ((Terminal.initial 8 2 1).moveTo 6 0).WellFormed := by
  have hstart : (Terminal.initial 8 2 1).Fits 8 2 :=
    Terminal.initial_fits (by decide) (by decide)
  exact hstart.moveTo (by decide) (by decide)

/-- A terminal that became twice as wide as the watcher prints in a column that only it has. -/
theorem spans_forward_iff_after_outgrowing :
    let wide := (Terminal.initial 8 2 1).moveTo 6 0
    let d : Display := ⟨Terminal.initial 4 2 1, Repaint.create 4 2, Grid.blank 4 2⟩
    let steps : List Step := [.obey (.print "ab"), .thaw wide, .take, .obey (.print "c")]
    let p := (d.run steps).repaint
    (∀ s ∈ p.take.1, s.row < 2 ∧ s.last < 4 ∧
      (s.first ≤ s.last ↔ ∃ x < 4, Due 4 2 (d.shownIn steps) s.row x)) ∧
      ((∀ w, d.HasWidth steps w → w ≤ 4) → ∀ s ∈ p.take.1, s.first ≤ s.last) := by
  refine spans_forward_iff (by decide) (Terminal.initial_fits (by decide) (by decide)) _ ?_
  intro next hnext
  obtain rfl : next = (Terminal.initial 8 2 1).moveTo 6 0 := by simpa using hnext
  exact moved_wellFormed

/-- Not all spans go forwards: after a taking, the column printed in is the only one due. -/
theorem span_backwards_after_outgrowing :
    ¬∀ (width height : Nat) (t : Terminal) (mirror : Grid) (steps : List Step),
      1 ≤ width → 1 ≤ height → t.WellFormed → (∀ next, .thaw next ∈ steps → next.WellFormed) →
        ∀ s ∈ (run ⟨t, Repaint.create width height, mirror⟩ steps).repaint.take.1,
          s.row < height ∧ s.first ≤ s.last ∧ s.last ≤ width - 1 := by
  intro h
  let steps : List Step :=
    [.thaw ((Terminal.initial 8 2 1).moveTo 6 0), .take, .obey (.print "x")]
  have hthawed : ∀ next, .thaw next ∈ steps → next.WellFormed := by
    intro next hnext
    obtain rfl : next = (Terminal.initial 8 2 1).moveTo 6 0 := by simpa [steps] using hnext
    exact moved_wellFormed
  have hspan := h 4 2 (Terminal.initial 4 2 1) (Grid.blank 4 2) steps (by decide) (by decide)
    (Terminal.initial_fits (by decide) (by decide)) hthawed ⟨0, 6, 3⟩ (by decide)
  exact absurd hspan (by decide)

end Display

end TermReplay

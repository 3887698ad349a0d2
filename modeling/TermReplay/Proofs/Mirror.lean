import TermReplay.Proofs.CommandReports
import TermReplay.Proofs.GridRows
import TermReplay.Proofs.Marks

/-!
A mirror of the display that is only brought up to date where the repaint watcher says so. Every
cell that is not marked is up to date already, whatever happened since the last taking; taking
copies the marked ones, and the mirror is the grid on display again.
-/

namespace TermReplay

namespace Grid

variable {g source : Grid} {width height : Nat}

def copySpan (source g : Grid) (s : Span) : Grid :=
  (g.setColumns s.row (List.range' s.first (s.last + 1 - s.first))
    (source.cell · s.row)).setLineSize s.row (source.lineSize s.row)

def copySpans (source g : Grid) (spans : List Span) : Grid := spans.foldl (copySpan source) g

theorem Fits.copySpan (h : g.Fits width height) (source : Grid) (s : Span) :
    (copySpan source g s).Fits width height :=
  (h.setColumns ..).setLineSize _ _

theorem Fits.copySpans (h : g.Fits width height) (source : Grid) (spans : List Span) :
    (copySpans source g spans).Fits width height := by
  induction spans generalizing g with
  | nil => exact h
  | cons s spans ih => exact ih (h.copySpan source s)

theorem cell_copySpan (h : g.Fits width height) {s : Span} (hs : s.row < height)
    (hl : s.last < width) {x : Nat} (hx : x < width) (y : Nat) :
    (copySpan source g s).cell x y =
      if s.row = y ∧ s.first ≤ x ∧ x ≤ s.last then source.cell x y else g.cell x y := by
  have hc : ∀ x ∈ List.range' s.first (s.last + 1 - s.first), x < width := by
    intro x hx
    rw [List.mem_range'_1] at hx
    omega
  rw [copySpan, cell_setLineSize, cell_setColumns h _ hc hs hx]
  simp only [List.mem_range'_1]
  by_cases hin : s.row = y ∧ s.first ≤ x ∧ x ≤ s.last
  · rw [if_pos hin, if_pos (by omega), hin.1]
  · rw [if_neg hin, if_neg (by omega)]

theorem lineSize_copySpan (h : g.Fits width height) {s : Span} (hs : s.row < height) (y : Nat) :
    (copySpan source g s).lineSize y = if s.row = y then source.lineSize y else g.lineSize y := by
  rw [copySpan, lineSize_setLineSize (h.setColumns ..) hs, lineSize_setColumns]
  by_cases hy : s.row = y
  · rw [if_pos hy, if_pos hy.symm, hy]
  · rw [if_neg hy, if_neg (Ne.symm hy)]

variable {spans : List Span}

/-- A cell is the one of the source if it was so before, or lies in a span. -/
theorem cell_copySpans (h : g.Fits width height)
    (hs : ∀ s ∈ spans, s.row < height ∧ s.first ≤ s.last ∧ s.last < width) {x y : Nat}
    (hx : x < width)
    (hcell : (∃ s ∈ spans, s.row = y ∧ s.first ≤ x ∧ x ≤ s.last) ∨ g.cell x y = source.cell x y) :
    (copySpans source g spans).cell x y = source.cell x y := by
  induction spans generalizing g with
  | nil =>
      obtain ⟨s, hm, -⟩ | hcell := hcell
      · cases hm
      · exact hcell
  | cons s spans ih =>
      obtain ⟨hrow, -, hlast⟩ := hs s (List.mem_cons_self ..)
      refine ih (h.copySpan source s) (fun s hm => hs s (List.mem_cons_of_mem _ hm)) ?_
      rw [cell_copySpan h hrow hlast hx]
      by_cases hin : s.row = y ∧ s.first ≤ x ∧ x ≤ s.last
      · exact .inr (if_pos hin)
      · rw [if_neg hin]
        obtain ⟨s', hm, hin'⟩ | hcell := hcell
        · obtain rfl | hm := List.mem_cons.mp hm
          · exact absurd hin' hin
          · exact .inl ⟨s', hm, hin'⟩
        · exact .inr hcell

theorem lineSize_copySpans (h : g.Fits width height)
    (hs : ∀ s ∈ spans, s.row < height ∧ s.first ≤ s.last ∧ s.last < width) {y : Nat}
    (hsize : (∃ s ∈ spans, s.row = y) ∨ g.lineSize y = source.lineSize y) :
    (copySpans source g spans).lineSize y = source.lineSize y := by
  induction spans generalizing g with
  | nil =>
      obtain ⟨s, hm, -⟩ | hsize := hsize
      · cases hm
      · exact hsize
  | cons s spans ih =>
      obtain ⟨hrow, -⟩ := hs s (List.mem_cons_self ..)
      refine ih (h.copySpan source s) (fun s hm => hs s (List.mem_cons_of_mem _ hm)) ?_
      rw [lineSize_copySpan h hrow]
      by_cases hin : s.row = y
      · exact .inr (if_pos hin)
      · rw [if_neg hin]
        obtain ⟨s', hm, hin'⟩ | hsize := hsize
        · obtain rfl | hm := List.mem_cons.mp hm
          · exact absurd hin' hin
          · exact .inl ⟨s', hm, hin'⟩
        · exact .inr hsize

end Grid

/-- A terminal, the watcher of its repaints, and a mirror of what it displays. -/
structure Display where
  terminal : Terminal
  repaint : Repaint
  mirror : Grid

namespace Display

inductive Step
  | obey (c : Command)
  /-- Takes over the state of a snapshot. -/
  | thaw (next : Terminal)
  | take

def react (d : Display) (r : Reaction) : Display :=
  { d with
    terminal := r.terminal
    repaint := r.notices.foldl Repaint.watch d.repaint }

/-- Copies what is to be painted, and nothing else. -/
def take (d : Display) : Display :=
  { d with
    repaint := d.repaint.take.2
    mirror := Grid.copySpans d.terminal.live d.mirror d.repaint.take.1 }

def step (d : Display) : Step → Display
  | .obey c => d.react (d.terminal.obey c)
  | .thaw next => d.react (d.terminal.replaceWith next)
  | .take => d.take

def run (d : Display) (steps : List Step) : Display := steps.foldl step d

/-- Whatever is not marked is the same in the mirror and on display. -/
structure UpToDate (d : Display) (width height : Nat) : Prop where
  terminal : d.terminal.Fits width height
  repaint : d.repaint.Fits width height
  mirror : d.mirror.Fits width height
  cells : ∀ x y, x < width → y < height →
    d.repaint.Marked y x ∨ d.mirror.cell x y = d.terminal.live.cell x y
  sizes : ∀ y, y < height →
    d.repaint.MarkedRow y ∨ d.mirror.lineSize y = d.terminal.live.lineSize y

variable {d : Display} {width height : Nat}

/-- What a command changes on display it also marks, so the mirror is still right elsewhere. -/
theorem UpToDate.obey (h : d.UpToDate width height) (c : Command) :
    (d.step (.obey c)).UpToDate width height := by
  have hr := h.terminal.obey_reports c
  obtain ⟨hfits, hwidens, htold⟩ := Repaint.watchAll h.repaint hr.spans
  refine ⟨h.terminal.obey c, hfits, h.mirror, ?_, ?_⟩
  · intro x y hx hy
    obtain ⟨first, last, hm, hf, hl⟩ | hsame := hr.cells x y hx hy
    · exact .inl (htold y first last hy hm x hf hl)
    · obtain hmarked | hcell := h.cells x y hx hy
      · exact .inl (hwidens.marked hmarked)
      · exact .inr (hcell.trans hsame.symm)
  · intro y hy
    obtain ⟨first, last, hm⟩ | hsame := hr.sizes y hy
    · obtain ⟨hle, -⟩ := hr.spans y first last hm
      exact .inl (htold y first last hy hm first (Nat.le_refl _) hle).row
    · obtain hmarked | hsize := h.sizes y hy
      · exact .inl (hwidens.markedRow hmarked)
      · exact .inr (hsize.trans hsame.symm)

theorem UpToDate.thaw (h : d.UpToDate width height) {next : Terminal}
    (hn : next.Fits width height) : (d.step (.thaw next)).UpToDate width height := by
  have hw : (d.repaint.watch (.cursor next.cursor.x next.cursor.y)).Fits width height :=
    Repaint.watch_fits h.repaint (spansInside_other rfl)
  refine ⟨hn, Repaint.markAll_fits hw, h.mirror, ?_, ?_⟩
  · intro x y hx hy
    exact .inl (Repaint.marked_markAll hw hx hy)
  · intro y hy
    exact .inl (Repaint.marked_markAll hw hw.width_pos hy).row

/-- With everything marked copied, nothing is left in which the two grids differ. -/
theorem UpToDate.mirror_take (h : d.UpToDate width height) :
    d.take.mirror = d.terminal.live := by
  have hs : ∀ s ∈ d.repaint.take.1, s.row < height ∧ s.first ≤ s.last ∧ s.last < width :=
    fun s hm => Repaint.take_inside h.repaint hm
  refine Grid.ext_cells (h.mirror.copySpans _ _) h.terminal.live ?_ ?_
  · intro x y hx hy
    exact Grid.cell_copySpans h.mirror hs hx
      ((h.cells x y hx hy).imp_left Repaint.mem_take_of_marked)
  · intro y hy
    exact Grid.lineSize_copySpans h.mirror hs
      ((h.sizes y hy).imp_left Repaint.mem_take_of_markedRow)

theorem UpToDate.take (h : d.UpToDate width height) : d.take.UpToDate width height where
  terminal := h.terminal
  repaint := Repaint.take_fits h.repaint
  mirror := h.mirror.copySpans _ _
  cells _ _ _ _ := .inr (by rw [h.mirror_take]; rfl)
  sizes _ _ := .inr (by rw [h.mirror_take]; rfl)

theorem UpToDate.step (h : d.UpToDate width height) {s : Step}
    (hs : ∀ next, s = .thaw next → next.Fits width height) :
    (d.step s).UpToDate width height := by
  cases s with
  | obey c => exact h.obey c
  | thaw next => exact h.thaw (hs next rfl)
  | take => exact h.take

/-- The invariant of the mirror holds over any run whose snapshots are of one size. -/
theorem UpToDate.run (h : d.UpToDate width height) {steps : List Step}
    (hs : ∀ next, Step.thaw next ∈ steps → next.Fits width height) :
    (d.run steps).UpToDate width height := by
  refine List.foldlRecOn (motive := (UpToDate · width height)) steps Display.step h ?_
  intro d hd s hm
  exact hd.step fun next hn => hs next (hn ▸ hm)

/-- At the start everything is marked. -/
theorem start_upToDate {depth : Nat} {t : Terminal} {mirror : Grid}
    (hc : Terminal.create width height depth = .ok t) (hm : mirror.Fits width height) :
    UpToDate ⟨t, Repaint.create width height, mirror⟩ width height := by
  obtain ⟨hsize, rfl⟩ := Terminal.create_eq_ok hc
  refine ⟨Terminal.initial_fits hsize.1 hsize.2, Repaint.create_fits hsize.1, hm, ?_, ?_⟩
  · intro x y hx hy
    exact .inl (Repaint.marked_create hx hy)
  · intro y hy
    exact .inl (Repaint.marked_create hsize.1 hy).row

/-- However commands, snapshots and takings follow each other, right after a taking the mirror
is the grid on display, although only the spans that were taken are ever copied into it. Every
span lies in its row. -/
theorem mirror_eq_live {depth : Nat} {t : Terminal} {mirror : Grid} {steps : List Step}
    (hc : Terminal.create width height depth = .ok t) (hm : mirror.Fits width height)
    (hs : ∀ next, Step.thaw next ∈ steps → next.Fits width height) :
    let d := run ⟨t, Repaint.create width height, mirror⟩ steps
    d.take.mirror = d.terminal.live ∧
      ∀ s ∈ d.repaint.take.1, s.row < height ∧ s.first ≤ s.last ∧ s.last < width := by
  have h := (start_upToDate hc hm).run hs
  exact ⟨h.mirror_take, fun s hspan => Repaint.take_inside h.repaint hspan⟩

/-- A mirror of question marks follows a line, a taking, a snapshot and a scrolled line. -/
theorem mirror_eq_live_question_marks :
    let steps : List Step :=
      [.obey (.print "ab"), .take, .thaw (Terminal.initial 2 2 3), .obey (.scrollUp 1)]
    let d := run ⟨Terminal.initial 2 2 1, Repaint.create 2 2, Grid.uniform 2 2 { char := '?' }⟩
      steps
    d.mirror ≠ Grid.blank 2 2 ∧ d.take.mirror = d.terminal.live ∧
      ∀ s ∈ d.repaint.take.1, s.row < 2 ∧ s.first ≤ s.last ∧ s.last < 2 := by
  intro steps d
  have hc : Terminal.create 2 2 1 = .ok (Terminal.initial 2 2 1) := rfl
  refine ⟨by decide, mirror_eq_live hc (Grid.uniform_fits 2 2 _) ?_⟩
  intro next hm
  have hnext : next = Terminal.initial 2 2 3 := by simpa [steps] using hm
  rw [hnext]
  exact Terminal.initial_fits (by decide) (by decide)

end Display

end TermReplay

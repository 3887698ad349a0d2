import TermReplay.Proofs.CursorNotices
import TermReplay.Proofs.Mirror
import TermReplay.Proofs.Reachability

/-!
The cursor as it is known from outside, over whole runs of commands, snapshots and takings. Who
keeps all notices knows where it is from the last one that tells of it. The repaint watcher, as
long as its size is the size of the terminal, has the cell under it, and a taking after it moved to
another cell covers the cell it left and the one it is on.
-/

namespace TermReplay

/-- The cell under the cursor, column first, also while a wrap is pending. -/
def Terminal.cursorCell (t : Terminal) : Nat × Nat := (t.column, t.cursor.y)

def Span.Covers (s : Span) (cell : Nat × Nat) : Prop :=
  s.row = cell.2 ∧ s.first ≤ cell.1 ∧ cell.1 ≤ s.last

namespace Repaint

variable {p : Repaint} {width height : Nat}

/-- The watcher has the cursor at a position, on a column that exists. -/
def Holds (p : Repaint) (position : Nat × Nat) : Prop :=
  p.cursor = (min position.1 p.lastColumn, position.2)

theorem watch_drawn (p : Repaint) (n : Notice) : (p.watch n).drawn = p.drawn := by
  cases n with
  | change row first last => rw [watch, mark_eq]
  | _ => rfl

theorem Holds.watch {before : Nat × Nat} (h : p.Holds before) (n : Notice) :
    (p.watch n).Holds (Notice.cursorAfter before [n]) := by
  cases n with
  | change row first last =>
      rw [Repaint.watch, mark_eq]
      exact h
  | cursor x y => rfl
  | _ => exact h

theorem Holds.watchAll {before : Nat × Nat} (h : p.Holds before) (notices : List Notice) :
    (notices.foldl Repaint.watch p).Holds (Notice.cursorAfter before notices) ∧
      (notices.foldl Repaint.watch p).drawn = p.drawn := by
  induction notices generalizing p before with
  | nil => exact ⟨h, rfl⟩
  | cons n notices ih =>
      obtain ⟨hholds, hdrawn⟩ := ih (h.watch n)
      rw [← List.singleton_append, Notice.cursorAfter_append]
      exact ⟨hholds, hdrawn.trans (p.watch_drawn n)⟩

theorem markCursor_cursor (p : Repaint) :
    p.markCursor.cursor = p.cursor ∧ p.markCursor.drawn = p.cursor := by
  unfold markCursor
  split
  · next h => exact ⟨rfl, h.symm⟩
  · rw [mark_eq, mark_eq]
    exact ⟨rfl, rfl⟩

/-- After a move, the next taking has the cell that the cursor left and the one it entered. -/
theorem take_covers (h : p.Fits width height) (hmoved : p.cursor ≠ p.drawn)
    (hcursor : p.cursor.2 < height) (hdrawn : p.drawn.2 < height) :
    (∃ s ∈ p.take.1, s.Covers p.cursor) ∧ ∃ s ∈ p.take.1, s.Covers p.drawn := by
  have hmark := mark_fits h p.cursor.2 (Nat.le_refl _) h.cursor
  have hentered : (p.mark p.cursor.2 p.cursor.1 p.cursor.1).Marked p.cursor.2 p.cursor.1 :=
    marked_mark h hcursor h.cursor (Nat.le_refl _) (Nat.le_refl _)
  have hboth : p.markCursor.Marked p.cursor.2 p.cursor.1 ∧
      p.markCursor.Marked p.drawn.2 p.drawn.1 := by
    rw [markCursor, if_neg hmoved]
    exact ⟨Widens.marked (mark_widens p.drawn.2 p.drawn.1 p.drawn.1) hentered,
      marked_mark hmark hdrawn h.drawn (Nat.le_refl _) (Nat.le_refl _)⟩
  have htaken : ∀ cell : Nat × Nat, p.markCursor.Marked cell.2 cell.1 →
      ∃ s ∈ p.take.1, s.Covers cell := by
    rintro cell ⟨first, last, hspan, hx⟩
    exact ⟨⟨cell.2, first, last⟩, mem_spans.mpr hspan, rfl, hx⟩
  exact ⟨htaken _ hboth.1, htaken _ hboth.2⟩

end Repaint

structure Watched where
  terminal : Terminal
  /-- Oldest first. -/
  log : List Notice
  repaint : Repaint
  /-- The cell of the cursor at the last taking, and the first cell before any. -/
  taken : Nat × Nat

namespace Watched

open Display (Step)

def start (t : Terminal) : Watched := ⟨t, [], Repaint.create t.width t.height, (0, 0)⟩

def react (w : Watched) (r : Reaction) : Watched :=
  { w with
    terminal := r.terminal
    log := w.log ++ r.notices
    repaint := r.notices.foldl Repaint.watch w.repaint }

def step (w : Watched) : Step → Watched
  | .obey c => w.react (w.terminal.obey c)
  | .thaw next => w.react (w.terminal.replaceWith next)
  | .take => { w with repaint := w.repaint.take.2, taken := w.terminal.cursorCell }

def run (w : Watched) (steps : List Step) : Watched := steps.foldl step w

structure Located (w : Watched) : Prop where
  terminal : w.terminal.WellFormed
  position : Notice.cursorAfter (0, 0) w.log = w.terminal.position

/-- The watcher of repaints, of the size of the terminal, has the cell under the cursor, and drew
the one of the last taking. -/
structure OnDisplay (w : Watched) (width height : Nat) : Prop where
  terminal : w.terminal.Fits width height
  repaint : w.repaint.Fits width height
  cursor : w.repaint.cursor = w.terminal.cursorCell
  drawn : w.repaint.drawn = w.taken
  taken_row : w.taken.2 < height

variable {w : Watched} {width height depth : Nat} {t : Terminal}

theorem start_located (hc : Terminal.create width height depth = .ok t) : (start t).Located := by
  have hformed := Terminal.create_wellFormed hc
  obtain ⟨-, rfl⟩ := Terminal.create_eq_ok hc
  exact ⟨hformed, rfl⟩

theorem Located.react (h : w.Located) {r : Reaction} (hr : r.terminal.WellFormed)
    (ht : r.TellsCursor w.terminal.position r.terminal.width r.terminal.height) :
    (w.react r).Located where
  terminal := hr
  position := by
    rw [Watched.react, Notice.cursorAfter_append, h.position]
    exact ht.last

/-- In a step more is told, and of the cursor only positions on the grid as it then is. -/
def TellsInside (w : Watched) (s : Step) : Prop :=
  ∃ more, (w.step s).log = w.log ++ more ∧
    ∀ x y, Notice.cursor x y ∈ more →
      x ≤ (w.step s).terminal.width ∧ y < (w.step s).terminal.height

/-- The notices of a step lead to where the cursor is, over no place off the grid. -/
theorem Located.step (h : w.Located) {s : Step} (hs : ∀ next, s = .thaw next → next.WellFormed) :
    (w.step s).Located ∧ w.TellsInside s := by
  cases s with
  | obey c =>
      have hafter := Terminal.Fits.obey h.terminal c
      have ht := Terminal.Fits.obey_tellsCursor h.terminal c
      rw [← hafter.width_eq, ← hafter.height_eq] at ht
      exact ⟨h.react (Terminal.WellFormed.obey h.terminal c) ht, _, rfl, ht.inside⟩
  | thaw next =>
      have hnext := hs next rfl
      have ht := Terminal.Fits.replaceWith_tellsCursor hnext w.terminal w.terminal.position
      exact ⟨h.react hnext ht, _, rfl, ht.inside⟩
  | take => exact ⟨⟨h.terminal, h.position⟩, [], (List.append_nil _).symm, nofun⟩

theorem Located.run (h : w.Located) {steps : List Step}
    (hs : ∀ next, Step.thaw next ∈ steps → next.WellFormed) : (w.run steps).Located := by
  refine List.foldlRecOn (motive := Located) steps Watched.step h ?_
  intro w hw s hm
  exact (hw.step fun next hn => hs next (hn ▸ hm)).1

theorem start_onDisplay (hc : Terminal.create width height depth = .ok t) :
    (start t).OnDisplay width height := by
  obtain ⟨hsize, rfl⟩ := Terminal.create_eq_ok hc
  exact
    { terminal := Terminal.initial_fits hsize.1 hsize.2
      repaint := Repaint.create_fits hsize.1
      cursor := congrArg (·, 0) (Nat.zero_min _).symm
      drawn := rfl
      taken_row := Nat.lt_of_lt_of_le Nat.two_pos hsize.2 }

theorem OnDisplay.react (h : w.OnDisplay width height) {r : Reaction}
    (hr : r.terminal.Fits width height)
    (ht : r.TellsCursor w.terminal.position width height) (hs : SpansInside r.notices width) :
    (w.react r).OnDisplay width height := by
  have hholds : w.repaint.Holds w.terminal.position := by
    rw [Repaint.Holds, h.cursor, Repaint.lastColumn, h.repaint.width_eq, ← h.terminal.width_eq]
    rfl
  obtain ⟨hcursor, hdrawn⟩ := hholds.watchAll r.notices
  have hfits := (Repaint.watchAll h.repaint hs).1
  refine ⟨hr, hfits, ?_, hdrawn.trans h.drawn, h.taken_row⟩
  rw [Repaint.Holds, ht.last, Repaint.lastColumn, hfits.width_eq, ← hr.width_eq] at hcursor
  exact hcursor

/-- A terminal that is taken over has to be of the size of the watcher. -/
theorem OnDisplay.step (h : w.OnDisplay width height) {s : Step}
    (hs : ∀ next, s = .thaw next → next.Fits width height) :
    (w.step s).OnDisplay width height := by
  cases s with
  | obey c =>
      exact h.react (h.terminal.obey c) (h.terminal.obey_tellsCursor c)
        (h.terminal.obey_reports c).spans
  | thaw next =>
      have hnext := hs next rfl
      exact h.react hnext (hnext.replaceWith_tellsCursor w.terminal _)
        (SpansInside.append (spansInside_other rfl) (spansInside_other rfl))
  | take =>
      obtain ⟨hcursor, hdrawn⟩ := w.repaint.markCursor_cursor
      exact
        { terminal := h.terminal
          repaint := Repaint.take_fits h.repaint
          cursor := hcursor.trans h.cursor
          drawn := hdrawn.trans h.cursor
          taken_row := h.terminal.cursor.2 }

theorem OnDisplay.run (h : w.OnDisplay width height) {steps : List Step}
    (hs : ∀ next, Step.thaw next ∈ steps → next.Fits width height) :
    (w.run steps).OnDisplay width height := by
  refine List.foldlRecOn (motive := (OnDisplay · width height)) steps Watched.step h ?_
  intro w hw s hm
  exact hw.step fun next hn => hs next (hn ▸ hm)

/-- Of a cursor that moved to another cell, both cells are in the next taking. -/
theorem OnDisplay.take_covers (h : w.OnDisplay width height)
    (hmoved : w.terminal.cursorCell ≠ w.taken) :
    (∃ s ∈ w.repaint.take.1, s.Covers w.terminal.cursorCell) ∧
      ∃ s ∈ w.repaint.take.1, s.Covers w.taken := by
  rw [← h.cursor, ← h.drawn] at hmoved ⊢
  refine Repaint.take_covers h.repaint hmoved ?_ (h.drawn ▸ h.taken_row)
  rw [h.cursor]
  exact h.terminal.cursor.2

/-- After any run of a new terminal, with snapshots of any size taken over in between, the last
notice of the cursor has its position, which is the first cell before any, and whatever is done
next tells of positions on the grid only. If all snapshots are of the size of the terminal, the
repaint watcher has the cell under the cursor, and the next taking covers it and the cell of the
last taking if they are not the same. -/
theorem cursor_known (hc : Terminal.create width height depth = .ok t) {steps : List Step}
    (hs : ∀ next, Step.thaw next ∈ steps → next.WellFormed) :
    let w := (start t).run steps
    (Notice.lastCursor? w.log).getD (0, 0) = (w.terminal.cursor.x, w.terminal.cursor.y) ∧
      (∀ s : Step, (∀ next, s = .thaw next → next.WellFormed) → w.TellsInside s) ∧
      ((∀ next, Step.thaw next ∈ steps → next.width = width ∧ next.height = height) →
        w.repaint.cursor = w.terminal.cursorCell ∧
          (w.terminal.cursorCell ≠ w.taken →
            (∃ s ∈ w.repaint.take.1, s.Covers w.terminal.cursorCell) ∧
              ∃ s ∈ w.repaint.take.1, s.Covers w.taken)) := by
  intro w
  have hlocated : w.Located := (start_located hc).run hs
  refine ⟨hlocated.position, fun s hthaw => (hlocated.step hthaw).2, fun hsame => ?_⟩
  have hdisplay : w.OnDisplay width height := by
    refine (start_onDisplay hc).run fun next hm => ?_
    obtain ⟨hwidth, hheight⟩ := hsame next hm
    rw [← hwidth, ← hheight]
    exact hs next hm
  exact ⟨hdisplay.cursor, hdisplay.take_covers⟩

/-- A wrap is pending in the last row, and the taking before was in the first one. -/
theorem cursor_known_while_wrap_pending :
    let steps : List Step :=
      [.obey (.print "a"), .take, .thaw (Terminal.initial 2 2 3), .obey (.print "abcd")]
    let w := (start (Terminal.initial 2 2 1)).run steps
    (w.terminal.cursor.x, w.terminal.cursor.y) = (2, 1) ∧
      (Notice.lastCursor? w.log).getD (0, 0) = (2, 1) ∧
      w.TellsInside (.obey (.print "e")) ∧
      w.repaint.cursor = (1, 1) ∧
      (∃ s ∈ w.repaint.take.1, s.Covers (1, 1)) ∧ ∃ s ∈ w.repaint.take.1, s.Covers (1, 0) := by
  intro steps w
  have hc : Terminal.create 2 2 1 = .ok (Terminal.initial 2 2 1) := rfl
  have hthawed : ∀ next, Step.thaw next ∈ steps → next = Terminal.initial 2 2 3 := by
    simp [steps]
  have hfits : ∀ next, Step.thaw next ∈ steps → next.WellFormed := by
    intro next hm
    rw [hthawed next hm]
    exact Terminal.initial_fits (by decide) (by decide)
  have hsame : ∀ next, Step.thaw next ∈ steps → next.width = 2 ∧ next.height = 2 := by
    intro next hm
    rw [hthawed next hm]
    exact ⟨rfl, rfl⟩
  have hposition : (w.terminal.cursor.x, w.terminal.cursor.y) = (2, 1) := by decide
  have hcell : w.terminal.cursorCell = (1, 1) := by decide
  have htaken : w.taken = (1, 0) := by decide
  obtain ⟨hlast, hinside, hwatch⟩ := cursor_known hc hfits
  obtain ⟨hwatched, hcovers⟩ := hwatch hsame
  have hboth := hcovers (show w.terminal.cursorCell ≠ w.taken by rw [hcell, htaken]; decide)
  rw [hposition] at hlast
  rw [hcell] at hwatched
  rw [hcell, htaken] at hboth
  exact ⟨hposition, hlast, hinside _ (by simp), hwatched, hboth⟩

end Watched

end TermReplay

import TermReplay.Proofs.ReportedChanges

/-!
Scrolling, advancing lines and printing report what they change. Cells are compared before and
after, so a reaction may report more than it changes, and never less.
-/

namespace TermReplay

open Reaction (Reports)

namespace Terminal

variable {t : Terminal} {width height : Nat}

/-- Scrolling as one edit of the grid on display. -/
theorem scrolling_eq (remove insert : Nat) (direction : Int) (count : Nat) (t : Terminal) :
    (cycleRows remove insert direction count t).andThen tellingRegion =
      (t.editLive (Nat.repeat (fun g => g.cycleRows remove insert) count)).telling
        ((cycleRows remove insert direction count t).notices ++
          t.wholeRows (rowsUpTo t.margins.top (t.margins.bottom + 1))) := by
  refine Reaction.ext_parts (cycleRows_terminal ..) ?_
  rw [Reaction.andThen_notices, cycleRows_terminal, tellingRegion, telling_notices,
    telling_notices, editLive_margins, editLive_wholeRows]

namespace Fits

theorem cycleRows_spans (remove insert : Nat) (direction : Int) (count : Nat) (t : Terminal) :
    SpansInside (Terminal.cycleRows remove insert direction count t).notices width := by
  induction count generalizing t with
  | zero =>
      intro row first last hn
      cases hn
  | succ count ih =>
      intro row first last hn
      rw [Terminal.cycleRows, Reaction.andThen_notices] at hn
      obtain hn | hn := List.mem_append.mp hn
      · cases List.mem_singleton.mp hn
      · exact ih _ row first last hn

theorem cycle_reports (h : t.Fits width height) {remove insert : Nat} (direction : Int)
    (count : Nat) (hr : remove < height) (hi : insert < height)
    (hmin : min remove insert = t.margins.top) (hmax : max remove insert = t.margins.bottom) :
    ((Terminal.cycleRows remove insert direction count t).andThen tellingRegion).Reports t.live
      width height := by
  have hout : ∀ y, y ∉ rowsUpTo t.margins.top (t.margins.bottom + 1) →
      y < min remove insert ∨ max remove insert < y := by
    intro y hy
    rw [mem_rowsUpTo] at hy
    omega
  rw [scrolling_eq]
  refine h.reports_rows (fun _ hn => List.mem_append_right _ hn)
    ((cycleRows_spans _ _ _ _ _).append (h.wholeRows_inside _)) ?_ ?_
  · intro g x y hg hx hy
    exact cell_repeat_cycleRows hg hr hi count hx (hout y hy)
  · intro g y hg hy
    exact lineSize_repeat_cycleRows hg hr hi count (hout y hy)

theorem quietly_reports (t : Terminal) : t.quietly.Reports t.live width height :=
  .of_live_eq rfl spansInside_nil

theorem tellingCursor_reports (t : Terminal) : t.tellingCursor.Reports t.live width height :=
  .of_live_eq rfl (spansInside_other rfl)

theorem scrollUp_reports (h : t.Fits width height) (count : Nat) :
    (t.scrollUp count).Reports t.live width height := by
  obtain ⟨htop, hbottom⟩ := h.margins
  simp only [Terminal.scrollUp]
  split
  · exact quietly_reports t
  · exact h.cycle_reports 1 _ (by omega) hbottom (by omega) (by omega)

theorem scrollDown_reports (h : t.Fits width height) (count : Nat) :
    (t.scrollDown count).Reports t.live width height := by
  obtain ⟨htop, hbottom⟩ := h.margins
  simp only [Terminal.scrollDown]
  split
  · exact quietly_reports t
  · exact h.cycle_reports (-1) _ hbottom (by omega) (by omega) (by omega)

theorem advanceLine_reports (h : t.Fits width height) :
    t.advanceLine.Reports t.live width height := by
  rw [h.advanceLine_eq]
  split
  · exact h.scrollUp_reports 1
  · exact .of_live_eq rfl spansInside_nil

theorem index_reports (h : t.Fits width height) : t.index.Reports t.live width height := by
  simp only [Terminal.index]
  split
  · exact h.scrollUp_reports 1
  · split
    · exact .of_live_eq rfl (spansInside_other rfl)
    · exact quietly_reports t

theorem reverseIndex_reports (h : t.Fits width height) :
    t.reverseIndex.Reports t.live width height := by
  simp only [Terminal.reverseIndex]
  split
  · exact h.scrollDown_reports 1
  · split
    · exact .of_live_eq rfl (spansInside_other rfl)
    · exact quietly_reports t

theorem nextLine_reports (h : t.Fits width height) : t.nextLine.Reports t.live width height :=
  h.index_reports.andThen (.of_live_eq rfl (spansInside_other rfl))

theorem lineFeed_reports (h : t.Fits width height) : t.lineFeed.Reports t.live width height := by
  refine h.advanceLine_reports.andThen ?_
  split
  · exact tellingCursor_reports _
  · exact .of_live_eq rfl (spansInside_other rfl)

theorem settleWrap_reports (h : t.Fits width height) :
    t.settleWrap.Reports t.live width height := by
  simp only [Terminal.settleWrap]
  split
  · split
    · exact (h.moveTo (Nat.zero_le width) h.cursor.2).advanceLine_reports
    · exact .of_live_eq rfl spansInside_nil
  · exact quietly_reports t

theorem place_reports (h : t.Fits width height) (hx : t.cursor.x < width) (char : Char) :
    (t.place char).Reports t.live width height := by
  have hy := h.cursor.2
  have hlast := h.lastColumn_lt
  have hle : t.cursor.x ≤ t.lastColumn := by
    have hw := h.width_eq
    simp only [lastColumn]
    omega
  simp only [Terminal.place]
  split
  · refine Reports.andThen (h.reports_span hle hlast ?_ fun _ _ => Grid.lineSize_insertCell ..) ?_
    · intro g x y hg hx' hout
      rw [Grid.cell_insertCell hg _ hx hy hx', if_neg]
      have hw := h.width_eq
      simp only [lastColumn] at hout
      omega
    · exact .of_live_eq rfl (spansInside_other rfl)
  · refine Reports.andThen (h.reports_span (Nat.le_refl _) hx ?_ fun _ _ => Grid.lineSize_set ..) ?_
    · intro g x y hg hx' hout
      rw [Grid.cell_set hg _ hx hy hx', if_neg (by omega)]
    · exact .of_live_eq rfl (spansInside_other rfl)

theorem printChar_reports (h : t.Fits width height) (char : Char) :
    (Terminal.printChar char t).Reports t.live width height := by
  obtain ⟨hs, hx⟩ := h.settleWrap
  simp only [Terminal.printChar]
  refine h.settleWrap_reports.andThen ?_
  exact hs.place_reports hx _

theorem print_reports (h : t.Fits width height) (text : String) :
    (t.print text).Reports t.live width height := by
  rw [Terminal.print]
  induction text.toList generalizing t with
  | nil => exact quietly_reports t
  | cons char rest ih => exact (h.printChar_reports char).andThen (ih (h.printChar char))

end Fits

end Terminal

end TermReplay

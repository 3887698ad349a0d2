import TermReplay.Proofs.DrawnAndMoved
import TermReplay.Proofs.FullScreen
import TermReplay.Proofs.Reachability

/-!
Ways to the next row. A line feed and an index test for the bottom of the region and for the last
row in a different order and tell of the cursor at different times; a character that does not fit
any more goes down by itself. All of them come to the same, whatever row the cursor is in.
-/

namespace TermReplay

def Notice.isCursor : Notice → Bool
  | .cursor .. => true
  | _ => false

def Notice.apartFromCursor (notices : List Notice) : List Notice :=
  notices.filter fun n => !n.isCursor

/-- The same state, with the same told apart from where the cursor is. -/
structure Reaction.Agrees (r s : Reaction) : Prop where
  terminal : r.terminal = s.terminal
  told : Notice.apartFromCursor r.notices = Notice.apartFromCursor s.notices

namespace Reaction.Agrees

variable {r s u : Reaction}

theorem refl (r : Reaction) : r.Agrees r := ⟨rfl, rfl⟩

theorem symm (h : r.Agrees s) : s.Agrees r := ⟨h.terminal.symm, h.told.symm⟩

theorem trans (h : r.Agrees s) (h' : s.Agrees u) : r.Agrees u :=
  ⟨h.terminal.trans h'.terminal, h.told.trans h'.told⟩

theorem andThen {f g : Terminal → Reaction} (h : r.Agrees s)
    (hf : (f r.terminal).Agrees (g r.terminal)) : (r.andThen f).Agrees (s.andThen g) where
  terminal := by rw [andThen_terminal, andThen_terminal, ← h.terminal, hf.terminal]
  told := by
    have hr := h.told
    have hg := hf.told
    simp only [Notice.apartFromCursor] at hr hg ⊢
    rw [andThen_notices, andThen_notices, List.filter_append, List.filter_append, hr, hg,
      h.terminal]

/-- Telling where the cursor is makes no difference, at the end and in front. -/
theorem tellingCursor (h : r.Agrees s) : (r.andThen Terminal.tellingCursor).Agrees s := by
  have hquiet : r.terminal.tellingCursor.Agrees r.terminal.quietly := ⟨rfl, rfl⟩
  have hboth := h.andThen hquiet
  rwa [andThen_quietly] at hboth

theorem tellingCursor_andThen (t : Terminal) (f : Terminal → Reaction) :
    (t.tellingCursor.andThen f).Agrees (f t) :=
  ⟨rfl, rfl⟩

end Reaction.Agrees

open Reaction (Agrees)

namespace Terminal

variable {t : Terminal}

/-- The tests in either order: on the last row below the region both stay where they are. -/
theorem advanceLine_agrees_index (h : t.WellFormed) : t.advanceLine.Agrees t.index := by
  have hy : t.cursor.y < t.height := (Fits.cursor h).2
  rw [Fits.advanceLine_eq h, index]
  split
  · exact .refl _
  · split
    · next hroom =>
        rw [lastRow, Nat.min_eq_left (Nat.le_sub_one_of_lt hroom)]
        exact ⟨rfl, rfl⟩
    · next hlast =>
        have hstay : min (t.cursor.y + 1) t.lastRow = t.cursor.y := by
          rw [lastRow]
          omega
        rw [hstay]
        exact ⟨rfl, rfl⟩

theorem advanceLine_modes (t : Terminal) : t.advanceLine.terminal.modes = t.modes :=
  (advanceLine_drawnAndMoved t).modes

theorem lineFeed_of_feed (hn : t.modes.newLine = .feed) :
    t.lineFeed = t.advanceLine.andThen tellingCursor := by
  have hafter : t.advanceLine.terminal.modes.newLine = .feed := by rw [advanceLine_modes, hn]
  refine Reaction.ext_parts ?_ ?_ <;>
    simp only [lineFeed, Reaction.andThen_terminal, Reaction.andThen_notices, hafter]

theorem lineFeed_of_feedAndReturn (hn : t.modes.newLine = .feedAndReturn) :
    t.lineFeed = t.advanceLine.andThen returnCarriage := by
  have hafter : t.advanceLine.terminal.modes.newLine = .feedAndReturn := by
    rw [advanceLine_modes, hn]
  refine Reaction.ext_parts ?_ ?_ <;>
    simp only [lineFeed, Reaction.andThen_terminal, Reaction.andThen_notices, hafter]

/-- A character for which there is no room goes down by itself, in front of the cell it is then
written to. -/
theorem printChar_of_full (hx : t.cursor.x = t.width) (hw : t.modes.autoWrap = true)
    (char : Char) :
    printChar char t =
      (t.moveTo 0 t.cursor.y).advanceLine.andThen
        (·.place (t.designations.translate char)) := by
  have hsettle : t.settleWrap = (t.moveTo 0 t.cursor.y).advanceLine := by
    rw [settleWrap, if_pos hx, if_pos hw]
  rw [printChar, hsettle]

/-- In front of a row, printing is the same as after advancing by hand. -/
theorem printChar_of_advanced (hpos : 0 < t.width) (hx : t.cursor.x = 0) (char : Char) :
    printChar char t.advanceLine.terminal =
      t.advanceLine.terminal.place (t.designations.translate char) := by
  have hadvanced := advanceLine_drawnAndMoved t
  have hroom : t.advanceLine.terminal.cursor.x < t.advanceLine.terminal.width := by
    rw [advanceLine_x, hx, hadvanced.width]
    exact hpos
  rw [printChar_of_room hroom, hadvanced.designations]

/-- There are three ways down. A line feed is an index, and in the mode in which it also returns
the carriage it is the step to the next line; a character that finds its row full, with wrapping
on, is written as if a return and a line feed had been sent in front of it. The state is the same
in every part, and what is told differs in places of the cursor only. -/
theorem ways_down_agree (h : t.WellFormed) :
    (t.modes.newLine = .feed → (t.obey .lineFeed).Agrees (t.obey .index)) ∧
      (t.modes.newLine = .feedAndReturn → (t.obey .lineFeed).Agrees (t.obey .nextLine)) ∧
      (t.modes.newLine = .feed → t.modes.autoWrap = true → t.cursor.x = t.width →
        ∀ char : Char, (t.obey (.print (String.singleton char))).Agrees
          (obeyAll [.carriageReturn, .lineFeed, .print (String.singleton char)] t)) := by
  refine ⟨fun hn => ?_, fun hn => ?_, fun hn hw hx char => ?_⟩
  · show t.lineFeed.Agrees t.index
    rw [lineFeed_of_feed hn]
    exact (advanceLine_agrees_index h).tellingCursor
  · show t.lineFeed.Agrees t.nextLine
    rw [lineFeed_of_feedAndReturn hn]
    exact (advanceLine_agrees_index h).andThen (.refl _)
  · let u := t.moveTo 0 t.cursor.y
    have hprint (v : Terminal) : v.obey (.print (String.singleton char)) = printChar char v :=
      print_singleton char v
    have hlast : each (fun c t => t.obey c) [.print (String.singleton char)] = printChar char :=
      funext fun v => (each_singleton ..).trans (hprint v)
    rw [hprint, printChar_of_full hx hw]
    show (u.advanceLine.andThen (·.place (u.designations.translate char))).Agrees
      (u.tellingCursor.andThen fun v => v.lineFeed.andThen
        (each (fun c t => t.obey c) [.print (String.singleton char)]))
    have hfed : u.advanceLine.Agrees u.lineFeed := by
      rw [lineFeed_of_feed (t := u) hn]
      exact (Agrees.refl u.advanceLine).tellingCursor.symm
    have hwritten : (u.advanceLine.andThen (·.place (u.designations.translate char))).Agrees
        (u.lineFeed.andThen (printChar char)) := by
      refine hfed.andThen ?_
      rw [printChar_of_advanced (t := u) (Fits.width_pos h) rfl]
      exact .refl _
    rw [hlast]
    exact hwritten.trans
      (Agrees.tellingCursor_andThen u fun v => v.lineFeed.andThen (printChar char)).symm

/-- A wrap is pending on the last row of a region that is not the last row of the screen; then, in
the mode that returns the carriage, on the row below the region. -/
theorem ways_down_from_both_bottoms :
    let t := (obeyAll [.print "ab", .margins (some 2) (some 3), .goto 3 1, .print "cd"]
      (initial 2 4 1)).terminal
    let u := (obeyAll [.goto 4 2, .mode (.newLine .feedAndReturn)] t).terminal
    t.cursor.x = t.width ∧ t.cursor.y = t.margins.bottom ∧ u.cursor.y = u.lastRow ∧
      (t.obey .lineFeed).Agrees (t.obey .index) ∧
      (u.obey .lineFeed).Agrees (u.obey .nextLine) ∧
      (t.obey (.print (String.singleton 'e'))).Agrees
        (obeyAll [.carriageReturn, .lineFeed, .print (String.singleton 'e')] t) := by
  intro t u
  have hrun {start : Terminal} (hs : Reachable start) (commands : List Command) :
      Reachable (obeyAll commands start).terminal :=
    each_keeps (fun c _ ht => .obey ht c) commands hs
  have ht : Reachable t := hrun (.create (show 2 * 4 ≤ Stored.wordLimit by decide) rfl) _
  have hu : Reachable u := hrun ht _
  obtain ⟨hindex, -, hprint⟩ := ways_down_agree ht.wellFormed
  obtain ⟨-, hnext, -⟩ := ways_down_agree hu.wellFormed
  exact ⟨rfl, rfl, rfl, hindex rfl, hnext rfl, hprint rfl rfl rfl 'e'⟩

end Terminal

end TermReplay

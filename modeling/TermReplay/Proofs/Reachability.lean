import TermReplay.Proofs.CheckedCommands
import TermReplay.Proofs.Consistency

/-!
Whole runs: a terminal is created, obeys commands in any order and with any payload, and takes
over stored snapshots in between. Its parts fit together all the time, and so every command
finds each index, range and subtraction that it makes in range.
-/

namespace TermReplay.Terminal

/-- The terminals that a run can lead to. A machine word can count the cells of the one that is
created; of those that are taken over their check counts them. -/
inductive Reachable : Terminal → Prop
  | create {width height depth : Nat} {t : Terminal}
      (hword : width * height ≤ Stored.wordLimit)
      (hc : Terminal.create width height depth = .ok t) : Reachable t
  | obey {t : Terminal} (h : Reachable t) (c : Command) : Reachable (t.obey c).terminal
  | thaw {t next : Terminal} {text : String} (h : Reachable t)
      (hs : ofSnapshot text = .ok next) : Reachable (t.replaceWith next).terminal

theorem create_wellFormed {width height depth : Nat} {t : Terminal}
    (h : create width height depth = .ok t) : t.WellFormed := by
  obtain ⟨hsize, rfl⟩ := create_eq_ok h
  exact initial_fits hsize.1 hsize.2

/-- The size is the same after a command, so the parts fit the size that the terminal then has. -/
theorem WellFormed.obey {t : Terminal} (h : t.WellFormed) (c : Command) :
    (t.obey c).terminal.WellFormed := by
  have ho := Fits.obey h c
  rw [WellFormed, ho.width_eq, ho.height_eq]
  exact ho

theorem Reachable.wellFormed {t : Terminal} (h : Reachable t) : t.WellFormed := by
  induction h with
  | create _ hc => exact create_wellFormed hc
  | obey _ c ih => exact ih.obey c
  | thaw _ hs _ => exact wellFormed_of_snapshot hs

/-- In every state of a run the parts of the terminal fit together, and no command, whatever it
carries, fails in a checked step. -/
theorem Reachable.safe {t : Terminal} (h : Reachable t) :
    t.WellFormed ∧ ∀ c : Command, t.obey? c = some (t.obey c) :=
  ⟨h.wellFormed, fun c => Fits.obey?_eq h.wellFormed c⟩

/-- A wrap is pending after two characters in two columns. -/
theorem safe_with_wrap_pending :
    Reachable ((initial 2 2 1).obey (.print "ab")).terminal ∧
      ((initial 2 2 1).obey (.print "ab")).terminal.cursor.x = 2 ∧
      ((initial 2 2 1).obey (.print "ab")).terminal.WellFormed ∧
      ∀ c : Command, ((initial 2 2 1).obey (.print "ab")).terminal.obey? c =
        some (((initial 2 2 1).obey (.print "ab")).terminal.obey c) := by
  have hr : Reachable ((initial 2 2 1).obey (.print "ab")).terminal :=
    .obey (.create (show 2 * 2 ≤ Stored.wordLimit by decide) rfl) _
  exact ⟨hr, by decide, Reachable.safe hr⟩

end TermReplay.Terminal

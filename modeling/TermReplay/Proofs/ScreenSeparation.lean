import TermReplay.Proofs.FullScreen

/-!
The two screens do not interfere. As long as the display is not switched and nothing is reset to
power-on, a run neither reads nor writes the grid behind the one on display: runs that start with
different grids there tell the same, differ nowhere else, and give the grids back as they were.
-/

namespace TermReplay

namespace Terminal

def withHidden (t : Terminal) (hidden : Grid) : Terminal := t.withUnseen hidden t.saved

/-- The second terminal is the first one with its own grid behind the one on display. -/
def SameInFront (t u : Terminal) : Prop := t.withHidden u.hidden = u

theorem sameInFront_withHidden (t : Terminal) (hidden : Grid) :
    t.SameInFront (t.withHidden hidden) :=
  congrArg t.withHidden (hidden_withUnseen t hidden t.saved)

end Terminal

def Reaction.withHidden (r : Reaction) (hidden : Grid) : Reaction :=
  ⟨r.terminal.withHidden hidden, r.notices⟩

namespace Terminal

/-- The grid behind the one on display makes no difference, and the two are not exchanged. -/
def Blind (f : Terminal → Reaction) : Prop :=
  ∀ (t : Terminal) (hidden : Grid),
    f (t.withHidden hidden) = (f t).withHidden hidden ∧
      (f t).terminal.modes.screen = t.modes.screen

namespace Blind

variable {f g : Terminal → Reaction}

theorem andThen (hf : Blind f) (hg : Blind g) : Blind fun t => (f t).andThen g := by
  intro t hidden
  obtain ⟨hft, hfscreen⟩ := hf t hidden
  obtain ⟨hgt, hgscreen⟩ := hg (f t).terminal hidden
  refine ⟨?_, hgscreen.trans hfscreen⟩
  show (f (t.withHidden hidden)).andThen g = _
  rw [hft]
  exact Reaction.ext_parts (congrArg Reaction.terminal hgt :)
    (congrArg (fun r => (f t).notices ++ Reaction.notices r) hgt :)

theorem hidden (hf : Blind f) (t : Terminal) : (f t).terminal.hidden = t.hidden := by
  have hself : t.withHidden t.hidden = t := t.withUnseen_self
  have h := (hf t t.hidden).1
  rw [hself] at h
  rw [h]
  exact hidden_withUnseen ..

/-- Of two runs from terminals that look the same, the second is the first with its own grid
behind it. -/
theorem of_sameInFront (hf : Blind f) {t u : Terminal} (h : t.SameInFront u) :
    f u = (f t).withHidden u.hidden := by
  have hu := (hf t u.hidden).1
  rwa [h] at hu

end Blind

/-- What knows nothing of saved cursors either. -/
theorem Unaware.blind {f : Terminal → Reaction} (hf : Unaware f) : Blind f := by
  intro t hidden
  obtain ⟨h, hscreen⟩ := hf t hidden t.saved
  refine ⟨?_, hscreen⟩
  rw [Reaction.withHidden, withHidden, withHidden, h, hf.saved t]
  rfl

theorem restoreCursor_blind : Blind restoreCursor := by
  intro t hidden
  have hsaved : (t.withHidden hidden).saved = t.saved := rfl
  simp only [restoreCursor, hsaved]
  cases t.saved.pop? <;> exact ⟨rfl, rfl⟩

theorem obey_blind {c : Command} (hreset : c ≠ .reset)
    (hswitch : ∀ kind, c ≠ .mode (.screen kind)) : Blind (·.obey c) := by
  obtain rfl | rfl | rfl | rfl | ⟨kind, rfl⟩ | hc := c.keepsUnseen_cases
  · exact fun _ _ => ⟨rfl, rfl⟩
  · exact restoreCursor_blind
  · exact fun _ _ => ⟨rfl, rfl⟩
  · exact absurd rfl hreset
  · exact absurd rfl (hswitch kind)
  · exact (obey_unaware hc).blind

theorem obeyAll_blind {commands : List Command}
    (hc : ∀ c ∈ commands, c ≠ .reset ∧ ∀ kind, c ≠ .mode (.screen kind)) :
    Blind (obeyAll commands) := by
  induction commands with
  | nil => exact fun _ _ => ⟨rfl, rfl⟩
  | cons c commands ih =>
      obtain ⟨⟨hreset, hswitch⟩, hrest⟩ := List.forall_mem_cons.mp hc
      exact (obey_blind hreset hswitch).andThen (ih hrest)

/-- Runs of the same commands, without a switch of the screen and without a reset, from two
terminals that differ at most in the grid behind the one on display: both tell the same, they end
in terminals that differ at most in that grid, and each leaves its own as it was. -/
theorem screens_separate {t u : Terminal} (h : t.SameInFront u) {commands : List Command}
    (hc : ∀ c ∈ commands, c ≠ .reset ∧ ∀ kind, c ≠ .mode (.screen kind)) :
    (obeyAll commands u).notices = (obeyAll commands t).notices ∧
      (obeyAll commands t).terminal.SameInFront (obeyAll commands u).terminal ∧
      (obeyAll commands t).terminal.hidden = t.hidden ∧
      (obeyAll commands u).terminal.hidden = u.hidden := by
  have hblind := obeyAll_blind hc
  have hrun := hblind.of_sameInFront h
  have hu := hblind.hidden u
  refine ⟨hrun ▸ rfl, ?_, hblind.hidden t, hu⟩
  rw [SameInFront, hu]
  exact (congrArg Reaction.terminal hrun).symm

/-- A line that wraps and scrolls, a saved cursor, a test pattern and a soft reset on the alternate
screen, in front of two letters or of question marks. -/
theorem screens_separate_over_test_pattern :
    let t := (obeyAll [.print "ab", .mode (.screen .alternate)] (initial 2 2 1)).terminal
    let u := t.withHidden (Grid.uniform 2 2 { char := '?' })
    let commands : List Command :=
      [.print "abcdef", .saveCursor, .screenAlignment, .reverseIndex, .restoreCursor,
        .insertLines 1, .softReset]
    t.hidden ≠ u.hidden ∧
      (obeyAll commands u).notices = (obeyAll commands t).notices ∧
      (obeyAll commands t).terminal.SameInFront (obeyAll commands u).terminal ∧
      (obeyAll commands t).terminal.hidden = t.hidden ∧
      (obeyAll commands u).terminal.hidden = u.hidden := by
  intro t u commands
  exact ⟨by decide, screens_separate (t.sameInFront_withHidden _) (by simp [commands])⟩

end Terminal

end TermReplay

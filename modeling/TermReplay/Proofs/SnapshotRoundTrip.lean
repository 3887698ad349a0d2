import TermReplay.Playback.Player
import TermReplay.Proofs.Reachability
import TermReplay.Proofs.StoredParts

/-!
Snapshots of terminals whose parts fit together. The text of such a snapshot is read back as the
terminal, for the check of what was read finds nothing wrong with it, and what takes over the
terminal goes on as the one that was stopped.
-/

namespace TermReplay

open Json (Schema)
open Stored (Restores Lossless accepts wordLimit nat_restores)

namespace Terminal

theorem gridsOf_bind_eq {p a : Grid} (hp : Restores p) (ha : Restores a) {β : Type}
    {rest : Grid × Grid → Option β} {b : Option β} (hrest : rest (p, a) = b) :
    (gridsOf? (.array [Stored.toJson p, Stored.toJson a]) >>= rest) = b := by
  have hboth : gridsOf? (.array [Stored.toJson p, Stored.toJson a]) = some (p, a) :=
    hp.bind_eq <| ha.bind_eq rfl
  rw [hboth]
  exact hrest

theorem accepts_grids {p a : Grid} (hp : Restores p) (ha : Restores a) :
    (Schema.exactly 2 (Stored.schema Grid)).Accepts
      (.array [Stored.toJson p, Stored.toJson a]) := by
  refine Schema.accepts_exactly [Stored.toJson p, Stored.toJson a] ?_
  intro v hv
  simp only [List.mem_cons, List.not_mem_nil, or_false] at hv
  obtain rfl | rfl := hv
  · exact hp.accepts
  · exact ha.accepts

variable {t : Terminal}

/-- The largest number in a terminal, apart from the depth of saved cursors, is at most its
number of cells. -/
theorem WellFormed.size_le (h : t.WellFormed) :
    t.width ≤ t.width * t.height ∧ t.height ≤ t.width * t.height :=
  ⟨Nat.le_mul_of_pos_right _ (Nat.lt_of_lt_of_le Nat.zero_lt_two h.two_rows),
    Nat.le_mul_of_pos_left _ h.width_pos⟩

/-- A terminal is stored part by part, whether its parts fit together or not. -/
theorem restores_of_parts (hwidth : t.width ≤ wordLimit) (hheight : t.height ≤ wordLimit)
    (hprimary : Restores t.primary) (halternate : Restores t.alternate)
    (hcursor : Restores t.cursor) (hsaved : Restores t.saved) (hmargins : Restores t.margins) :
    Restores t := by
  constructor
  · exact Schema.accepts_record (by decide) <|
      .cons (nat_restores hwidth).accepts <| .cons (nat_restores hheight).accepts <|
      .cons (accepts_grids hprimary halternate) <| .cons hcursor.accepts <|
      .cons hsaved.accepts <| .cons (accepts t.modes) <| .cons hmargins.accepts <|
      .cons (accepts t.tabs) <| .cons (accepts t.windowTitle) <| .cons (accepts t.iconTitle) <|
      .cons (accepts t.designations) <| .cons (accepts t.leds) .nil
  · refine gridsOf_bind_eq hprimary halternate ?_
    dsimp only
    exact (nat_restores hwidth).bind_eq <|
      (nat_restores hheight).bind_eq <|
      hcursor.bind_eq <|
      hsaved.bind_eq <|
      (Lossless.restores t.modes).bind_eq <|
      hmargins.bind_eq <|
      (Lossless.restores t.tabs).bind_eq <|
      (Lossless.restores t.windowTitle).bind_eq <|
      (Lossless.restores t.iconTitle).bind_eq <|
      (Lossless.restores t.designations).bind_eq <|
      (Lossless.restores t.leds).bind_eq rfl

/-- All the parts of a terminal are stored without loss, its sizes as far as a word goes. -/
theorem WellFormed.restores (h : t.WellFormed) (hcells : t.width * t.height ≤ wordLimit)
    (hdepth : t.saved.depth ≤ wordLimit) : Restores t := by
  obtain ⟨hw, hh⟩ := h.size_le
  have hwidth : t.width ≤ wordLimit := Nat.le_trans hw hcells
  have hheight : t.height ≤ wordLimit := Nat.le_trans hh hcells
  have hgrid {g : Grid} (hg : g.Fits t.width t.height) : Restores g :=
    Grid.restores (hg.width_eq ▸ hwidth) (hg.height_eq ▸ hheight)
  have hinside {c : Cursor} (hc : c.Inside t.width t.height) : Restores c :=
    Cursor.restores (Nat.le_trans hc.1 hwidth) (Nat.le_trans (Nat.le_of_lt hc.2) hheight)
  have hsaved := SavedCursors.restores (fun c hc => hinside (h.saved.inside c hc)) hdepth
  have hmargins : Restores t.margins := by
    obtain ⟨htop, hbottom⟩ := h.margins
    apply Margins.restores <;> omega
  exact restores_of_parts hwidth hheight (hgrid h.primary) (hgrid h.alternate)
    (hinside h.cursor) hsaved hmargins

/-- The snapshot of a terminal is accepted and describes this terminal. -/
theorem WellFormed.ofSnapshot_eq (h : t.WellFormed) (hcells : t.width * t.height ≤ wordLimit)
    (hdepth : t.saved.depth ≤ wordLimit) : ofSnapshot t.toSnapshot = .ok t := by
  have hread := (h.restores hcells hdepth).ofText
  exact ofSnapshot_eq_ok_iff.mpr ⟨hread, check_eq_ok_iff.mpr ⟨h, hcells⟩⟩

theorem Reachable.cells_le (h : Reachable t) : t.width * t.height ≤ wordLimit := by
  induction h with
  | create hword hc =>
      obtain ⟨-, rfl⟩ := create_eq_ok hc
      exact hword
  | obey h c ih =>
      have hobey := Fits.obey h.wellFormed c
      rw [hobey.width_eq, hobey.height_eq]
      exact ih
  | thaw _ hs _ => exact cells_le_of_snapshot hs

/-- A run can be stopped anywhere and stored. -/
theorem Reachable.ofSnapshot_eq (h : Reachable t) (hdepth : t.saved.depth ≤ wordLimit) :
    ofSnapshot t.toSnapshot = .ok t :=
  h.wellFormed.ofSnapshot_eq h.cells_le hdepth

/-- The snapshot of a terminal, whatever it shows and has saved, is read back as this terminal:
all that is asked is that its cells and its room for cursors can be counted in a machine word.
Whoever takes it over tells the cursor and that everything was replaced, and from there on does
and tells what the terminal would have without the stop: for all outputs of a stream, and in a
player with the same bytes waiting for all further bytes. -/
theorem resumes_from_snapshot (h : t.WellFormed) (hcells : t.width * t.height ≤ wordLimit)
    (hdepth : t.saved.depth ≤ wordLimit) :
    ∃ restored, ofSnapshot t.toSnapshot = .ok restored ∧ restored = t ∧
      (∀ (other : Terminal) (outputs : List Output),
        (other.replaceWith restored).andThen (followAll outputs) =
          ⟨(t.followAll outputs).terminal,
            .cursor t.cursor.x t.cursor.y :: .replaced :: (t.followAll outputs).notices⟩) ∧
      ∀ (other stopped : Player) (bytes : List UInt8), stopped.terminal = t →
        other.stream.limit = stopped.stream.limit →
        (other.thaw ⟨stopped.stream.pending, restored⟩).1.feed bytes = stopped.feed bytes := by
  refine ⟨t, h.ofSnapshot_eq hcells hdepth, rfl, ?_, ?_⟩
  · intro other outputs
    rfl
  · intro other stopped bytes hterminal hlimit
    have hplayer : (other.thaw ⟨stopped.stream.pending, t⟩).1 = stopped := by
      obtain ⟨⟨waiting, limit⟩, terminal⟩ := stopped
      cases hterminal
      cases hlimit
      rfl
    rw [hplayer]

/-- A title with a quote, a line feed and a character beyond ASCII, and a saved cursor. -/
theorem resumes_with_quoted_title :
    ∃ t : Terminal, t.windowTitle = "\x22é\n" ∧ t.saved.entries.length = 1 ∧ t.WellFormed ∧
      t.width * t.height ≤ wordLimit ∧ t.saved.depth ≤ wordLimit ∧
      ∃ restored, ofSnapshot t.toSnapshot = .ok restored ∧ restored = t ∧
        (∀ (other : Terminal) (outputs : List Output),
          (other.replaceWith restored).andThen (followAll outputs) =
            ⟨(t.followAll outputs).terminal,
              .cursor t.cursor.x t.cursor.y :: .replaced :: (t.followAll outputs).notices⟩) ∧
        ∀ (other stopped : Player) (bytes : List UInt8), stopped.terminal = t →
          other.stream.limit = stopped.stream.limit →
          (other.thaw ⟨stopped.stream.pending, restored⟩).1.feed bytes = stopped.feed bytes := by
  have hinitial : (initial 2 2 1).WellFormed := initial_fits (by decide) (by decide)
  have hfits := (hinitial.obey (.windowTitle "\x22é\n")).obey .saveCursor
  exact ⟨_, rfl, rfl, hfits, by decide, by decide,
    resumes_from_snapshot hfits (by decide) (by decide)⟩

end Terminal

end TermReplay

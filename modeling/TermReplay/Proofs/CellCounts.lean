import TermReplay.Proofs.CheckedCreation
import TermReplay.Proofs.RunningToEnd
import TermReplay.Proofs.ShapeLengths
import TermReplay.Proofs.SnapshotRoundTrip

/-!
Cells that are counted in a machine word. Nothing bounds the size of a terminal from above, neither
in settings nor in what is stored, so the count can go beyond the word, and then neither is the
terminal created nor is there an answer about the snapshot. A snapshot whose parts fit together has
to spell out a tab stop for each column and a line size for each row, and texts of usual length
have no room for so many.
-/

namespace TermReplay

open Stored (ofJson? wordLimit)

/-- The player of some settings, with the cells of its terminal counted in a machine word. -/
def Settings.player? (s : Settings) : Option (Except TooSmall Player) := do
  let created ← Terminal.create? s.terminal.columns s.terminal.rows s.terminal.savedCursors
  some (created.map fun terminal => { stream := { limit := s.stream.maxPending }, terminal })

theorem Settings.player?_eq {s : Settings}
    (hword : s.terminal.columns * s.terminal.rows ≤ wordLimit) : s.player? = some s.player := by
  rw [player?, Terminal.create?_eq hword]
  rfl

theorem Settings.player?_eq_none {s : Settings} (hs : s.check = .ok ())
    (hword : wordLimit < s.terminal.columns * s.terminal.rows) : s.player? = none := by
  obtain ⟨hcolumns, hrows, -⟩ := check_eq_ok_iff.mp hs
  rw [player?, Terminal.create?_eq_none ⟨hcolumns, hrows⟩ hword]
  rfl

section Lengths

variable {n : Nat} {v : Json}

theorem Json.Within.memberValues (hv : v.Within n) : ∀ w ∈ v.memberValues, w.Within n := by
  cases hv with
  | object members => exact List.forall_mem_map.mpr members
  | _ => exact List.forall_mem_nil _

theorem length_of_mapM {α β : Type} {f : α → Option β} {xs : List α} {ys : List β}
    (h : xs.mapM f = some ys) : ys.length = xs.length := by
  induction xs generalizing ys with
  | nil =>
      cases h
      rfl
  | cons x xs ih =>
      simp only [List.mapM_cons, Option.bind_eq_bind, Option.bind_eq_some_iff, Option.pure_def,
        Option.some.injEq] at h
      obtain ⟨_, -, ys, hys, rfl⟩ := h
      exact congrArg (· + 1) (ih hys)

theorem size_le_of_ofJson {α : Type} [Stored α] (hv : v.Within n) {xs : Array α}
    (h : ofJson? v = some xs) : xs.size ≤ n := by
  obtain ⟨ys, hys, rfl⟩ := Option.map_eq_some_iff.mp h
  cases hv with
  | array few items => exact Nat.le_trans (Nat.le_of_eq (length_of_mapM hys)) few
  | _ => cases hys

theorem Grid.sizes_le_of_ofJson (hv : v.Within n) {g : Grid} (h : ofJson? v = some g) :
    g.sizes.size ≤ n := by
  have hmembers := hv.memberValues
  unfold ofJson? Grid.instStored at h
  dsimp only at h
  split at h
  · next hv =>
      simp only [Option.bind_eq_bind, Option.bind_eq_some_iff, Option.pure_def,
        Option.some.injEq] at h
      obtain ⟨_, -, _, -, _, -, _, -, _, -, _, -, _, -, _, -, _, -, sizes, hsizes, rfl⟩ := h
      exact size_le_of_ofJson (hmembers _ (by simp [hv])) hsizes
  · cases h

theorem Terminal.sizes_le_of_gridsOf (hv : v.Within n) {primary alternate : Grid}
    (h : gridsOf? v = some (primary, alternate)) : primary.sizes.size ≤ n := by
  unfold gridsOf? at h
  split at h
  · next first _ =>
      cases hv with
      | array few items =>
          simp only [Option.bind_eq_bind, Option.bind_eq_some_iff, Option.pure_def,
            Option.some.injEq] at h
          obtain ⟨_, hprimary, _, -, hpair⟩ := h
          cases hpair
          exact Grid.sizes_le_of_ofJson (items first (List.mem_cons_self ..)) hprimary
  · cases h

theorem Terminal.lengths_le_of_ofJson (hv : v.Within n) {t : Terminal} (h : ofJson? v = some t) :
    t.tabs.size ≤ n ∧ t.primary.sizes.size ≤ n := by
  have hmembers := hv.memberValues
  unfold ofJson? Terminal.instStored at h
  dsimp only at h
  split at h
  · next hv =>
      simp only [Option.bind_eq_bind, Option.bind_eq_some_iff, Option.pure_def,
        Option.some.injEq] at h
      obtain ⟨⟨primary, alternate⟩, hgrids, _, -, _, -, _, -, _, -, _, -, _, -, tabs, htabs, _, -,
        _, -, _, -, _, -, rfl⟩ := h
      exact ⟨size_le_of_ofJson (hmembers _ (by simp [hv])) htabs,
        sizes_le_of_gridsOf (hmembers _ (by simp [hv])) hgrids⟩
  · cases h

end Lengths

namespace Terminal

variable {text : String} {t : Terminal}

/-- Tab stops and line sizes are spelled out in the text. -/
theorem lengths_le_of_ofText (h : Stored.ofText text = .ok t) :
    t.tabs.size ≤ text.length ∧ t.primary.sizes.size ≤ text.length := by
  obtain ⟨v, hv, h⟩ := Json.exists_of_bind_eq_ok h
  split at h
  · next hjson =>
      cases h
      exact lengths_le_of_ofJson (Json.Schema.within_length rfl hv) hjson
  · cases h

/-- A short text has no room for the tab stops and line sizes of more cells than a word counts. -/
theorem cells_le_of_short (h : Stored.ofText text = .ok t)
    (hshort : text.length < Number.twoTo 32) (htabs : t.tabs.size = t.width)
    (hsizes : t.primary.sizes.size = t.height) : t.width * t.height ≤ wordLimit := by
  obtain ⟨hwidth, hheight⟩ := lengths_le_of_ofText h
  rw [htabs] at hwidth
  rw [hsizes] at hheight
  have hword : t.width * t.height < Number.twoTo 32 * Number.twoTo 32 :=
    Nat.mul_lt_mul_of_le_of_lt (Nat.le_of_lt (Nat.lt_of_le_of_lt hwidth hshort))
      (Nat.lt_of_le_of_lt hheight hshort) (Number.twoTo_pos 32)
  exact Nat.le_sub_one_of_lt hword

section Answers

variable (hdecoded : Stored.ofText text = .ok t)
include hdecoded

theorem ofSnapshot_eq_ok_iff_fits :
    ofSnapshot text = .ok t ↔ t.WellFormed ∧ t.width * t.height ≤ wordLimit := by
  rw [ofSnapshot_eq_ok_iff, and_iff_right hdecoded, check_eq_ok_iff]

theorem ofSnapshot_eq_overflow_iff :
    ofSnapshot text = .error .overflow ↔
      (1 ≤ t.width ∧ 2 ≤ t.height) ∧ (t.primary.width = t.width ∧ t.primary.height = t.height) ∧
        wordLimit < t.width * t.height := by
  rw [← check_eq_overflow_iff]
  simp only [ofSnapshot, hdecoded]
  split <;> simp_all

theorem ofSnapshot_answers :
    ofSnapshot text = .ok t ∨ (∃ reason, ofSnapshot text = .error (.inconsistent reason)) ∨
      ofSnapshot text = .error .overflow := by
  simp only [ofSnapshot, hdecoded]
  split
  · next reason _ => exact .inr (.inl ⟨reason, rfl⟩)
  · exact .inr (.inr rfl)
  · exact .inl rfl

theorem ofSnapshot_eq_ok_iff_of_short (hshort : text.length < Number.twoTo 32) :
    ofSnapshot text = .ok t ↔ t.WellFormed := by
  rw [ofSnapshot_eq_ok_iff_fits hdecoded]
  exact and_iff_left_of_imp fun h => cells_le_of_short hdecoded hshort h.tabs h.primary.sizes

end Answers

/-- Cells are counted exactly or not at all. A terminal for settings that pass the check is created
just if a machine word can hold columns times rows, and it passes the check of stored terminals.
A text that describes a terminal is accepted just if the parts fit together and the word can hold
the count of the cells. Otherwise it is told to be inconsistent, unless the check comes to count
the cells of the first grid and they are too many: then it breaks off. Texts of less than 2 ^ 32
characters are accepted whenever the parts fit together. -/
theorem cells_counted {s : Settings} (hs : s.check = .ok ())
    (hdecoded : Stored.ofText text = .ok t) :
    (∀ (g : Grid) (n : Nat),
      g.cellCount? = some n ↔ n = g.width * g.height ∧ g.width * g.height ≤ wordLimit) ∧
    (s.terminal.columns * s.terminal.rows ≤ wordLimit →
      ∃ p, s.player = .ok p ∧ s.player? = some (.ok p) ∧ p.terminal.check = .ok ()) ∧
    (wordLimit < s.terminal.columns * s.terminal.rows → s.player? = none) ∧
    (ofSnapshot text = .ok t ↔ t.WellFormed ∧ t.width * t.height ≤ wordLimit) ∧
    (ofSnapshot text = .ok t ∨ (∃ reason, ofSnapshot text = .error (.inconsistent reason)) ∨
      ofSnapshot text = .error .overflow) ∧
    (ofSnapshot text = .error .overflow ↔
      (1 ≤ t.width ∧ 2 ≤ t.height) ∧ (t.primary.width = t.width ∧ t.primary.height = t.height) ∧
        wordLimit < t.width * t.height) ∧
    (text.length < Number.twoTo 32 → (ofSnapshot text = .ok t ↔ t.WellFormed)) := by
  refine ⟨fun _ _ => Grid.cellCount?_eq_some_iff, ?_, Settings.player?_eq_none hs,
    ofSnapshot_eq_ok_iff_fits hdecoded, ofSnapshot_answers hdecoded,
    ofSnapshot_eq_overflow_iff hdecoded, ofSnapshot_eq_ok_iff_of_short hdecoded⟩
  intro hcells
  obtain ⟨hcolumns, hrows, -⟩ := Settings.check_eq_ok_iff.mp hs
  have hplayer := Settings.player_eq hs
  have hfits : s.freshPlayer.terminal.WellFormed := initial_fits hcolumns hrows
  refine ⟨s.freshPlayer, hplayer, ?_, check_eq_ok_iff.mpr ⟨hfits, hcells⟩⟩
  rw [Settings.player?_eq hcells, hplayer]

/-- The snapshot of two columns and two rows. -/
theorem cells_counted_of_four :
    let s : Settings := {}
    let t := initial 2 2 1
    s.check = .ok () ∧ s.terminal.columns * s.terminal.rows ≤ wordLimit ∧
      (∃ p, s.player = .ok p ∧ s.player? = some (.ok p) ∧ p.terminal.check = .ok ()) ∧
      t.toSnapshot.length < Number.twoTo 32 ∧ Stored.ofText t.toSnapshot = .ok t ∧
      ofSnapshot t.toSnapshot = .ok t := by
  intro s t
  have hs : s.check = .ok () := Settings.check_eq_ok_iff.mpr (by decide)
  have hcells : s.terminal.columns * s.terminal.rows ≤ wordLimit := by decide
  have hfits : t.WellFormed := initial_fits (by decide) (by decide)
  have hdecoded : Stored.ofText t.toSnapshot = .ok t :=
    (hfits.restores (by decide) (by decide)).ofText
  have hshort : t.toSnapshot.length < Number.twoTo 32 := by
    rw [toSnapshot, Stored.toText, Json.text, String.length_ofList]
    decide +kernel
  obtain ⟨-, hcreated, -, -, -, -, haccepted⟩ := cells_counted hs hdecoded
  exact ⟨hs, hcells, hcreated hcells, hshort, hdecoded, (haccepted hshort).mpr hfits⟩

/-- A terminal of two rows of 2 ^ 63 columns with no cell and no tab stop. -/
def hollow : Terminal :=
  let width := Number.twoTo 63
  { initial 0 2 1 with
    width
    primary := { Grid.blank 0 2 with width }
    alternate := { Grid.blank 0 2 with width }
    tabs := #[] }

/-- Settings and stored terminals can ask for 2 ^ 64 cells. No such terminal is created, and the
check of such a snapshot breaks off. -/
theorem cells_not_counted :
    let s : Settings := { terminal := { columns := Number.twoTo 63, rows := 2 } }
    s.check = .ok () ∧ wordLimit < s.terminal.columns * s.terminal.rows ∧ s.player? = none ∧
      Stored.ofText hollow.toSnapshot = .ok hollow ∧
      wordLimit < hollow.primary.width * hollow.primary.height ∧
      hollow.primary.cellCount? = none ∧ ofSnapshot hollow.toSnapshot = .error .overflow := by
  intro s
  have hs : s.check = .ok () := Settings.check_eq_ok_iff.mpr (by decide)
  have hover : wordLimit < s.terminal.columns * s.terminal.rows := by decide
  have hgrid : Stored.Restores hollow.primary := Grid.restores (by decide) (by decide)
  have hcursor : Stored.Restores hollow.cursor := Cursor.restores (by decide) (by decide)
  have hsaved : Stored.Restores hollow.saved := SavedCursors.restores nofun (by decide)
  have hmargins : Stored.Restores hollow.margins := Margins.restores (by decide) (by decide)
  have hdecoded : Stored.ofText hollow.toSnapshot = .ok hollow :=
    (restores_of_parts (by decide) (by decide) hgrid hgrid hcursor hsaved hmargins).ofText
  have hcells : wordLimit < hollow.primary.width * hollow.primary.height := by decide
  exact ⟨hs, hover, Settings.player?_eq_none hs hover, hdecoded, hcells,
    Grid.cellCount?_eq_none_iff.mpr hcells,
    (ofSnapshot_eq_overflow_iff hdecoded).mpr ⟨by decide, ⟨rfl, rfl⟩, by decide⟩⟩

end Terminal

end TermReplay

import TermReplay.Proofs.Preservation

/-!
Margins as they are asked for. The margins are limited in several steps, whose order matters for
bounds that are out of order or off the screen; together the steps come to one limit for each of
the two, the bottom first.
-/

namespace TermReplay

namespace Margins

/-- The row of a one-based bound; without one, or for a bound of zero, the row of the edge. -/
def boundRow (bound : Option Nat) (edge : Nat) : Nat :=
  match bound with
  | none | some 0 => edge
  | some n => n - 1

/-- The margins for one-based bounds: the bottom is limited to the rows after the first one, and
the top to the rows above the bottom. -/
def requested (height : Nat) (top bottom : Option Nat) : Margins :=
  let last := max 1 (min (boundRow bottom (height - 1)) (height - 1))
  ⟨min (boundRow top 0) (last - 1), last⟩

variable {height : Nat}

theorem requested_inside (hh : 2 ≤ height) (top bottom : Option Nat) :
    (requested height top bottom).Inside height := by
  simp only [requested, Inside]
  omega

/-- Bounds that are in order and on the screen are taken as they are. -/
theorem requested_of_inside {m : Margins} (h : m.Inside height) :
    requested height (some (m.top + 1)) (some (m.bottom + 1)) = m := by
  obtain ⟨top, bottom⟩ := m
  obtain ⟨horder, hscreen⟩ := h
  simp only [requested, boundRow, Nat.add_sub_cancel, mk.injEq] at *
  omega

end Margins

namespace Terminal

variable {t : Terminal} {height : Nat}

/-- The steps come to the two limits: the top is pulled up if the bottom asked for is not below it,
wherever that bottom is. -/
theorem marginsFor_eq_requested (hh : 2 ≤ height) (top bottom : Option Nat) :
    marginsFor height top bottom = Margins.requested height top bottom := by
  have hbound (bound : Option Nat) (edge : Nat) :
      (match bound with
        | none | some 0 => edge - 1
        | some n => n - 1) = Margins.boundRow bound (edge - 1) := by
    match bound with
    | none | some 0 | some (_ + 1) => rfl
  unfold marginsFor
  extract_lets fromEdge first last raised limited bottom'
  have hfirst : first = Margins.boundRow top 0 := hbound top 1
  have hlast : last = Margins.boundRow bottom (height - 1) := hbound bottom height
  simp only [Margins.requested, ← hfirst, ← hlast, Margins.mk.injEq]
  refine ⟨?_, rfl⟩
  by_cases horder : last ≤ first + 1
  · have hraised : raised = last - 1 := if_pos horder
    split <;> omega
  · have hraised : raised = first := if_neg horder
    split <;> omega

theorem setMargins_eq (hh : 2 ≤ t.height) (top bottom : Option Nat) :
    t.setMargins top bottom =
      { t with
        margins := Margins.requested t.height top bottom
        cursor := t.cursor.moveTo 0
          (match t.modes.origin with
            | .screen => 0
            | .margin => (Margins.requested t.height top bottom).top) }.tellingCursor := by
  have hinside := Margins.requested_inside hh top bottom
  rw [setMargins, marginsFor_eq_requested hh, goto]
  cases horigin : t.modes.origin with
  | screen => simp [moveTo]
  | margin =>
      have htop := Nat.min_eq_left (Nat.le_of_lt hinside.1)
      simp [moveTo, htop]

/-- Whatever bounds are asked for, missing, zero, out of order or off the screen: the bottom
margin is the bottom asked for, limited to the rows after the first, and the top margin is the top
asked for, limited to the rows above the bottom. So the region has two rows at least, all on the
screen, and bounds in order on the screen are taken as they are. The cursor goes to the first
column of the first row, or of the region under the margin origin. Nothing else changes, so with
the margins that were in force before only the cursor does. -/
theorem margins_as_requested {t : Terminal} (hh : 2 ≤ t.height) (top bottom : Option Nat) :
    let margins := Margins.requested t.height top bottom
    let row := match t.modes.origin with
      | .screen => 0
      | .margin => margins.top
    t.obey (.margins top bottom) =
        { t with margins, cursor := t.cursor.moveTo 0 row }.tellingCursor ∧
      margins.Inside t.height ∧
      (∀ first last, top = some first → bottom = some last → 1 ≤ first → first < last →
        last ≤ t.height → margins = ⟨first - 1, last - 1⟩) ∧
      (margins = t.margins →
        (t.obey (.margins top bottom)).terminal = { t with cursor := t.cursor.moveTo 0 row }) ∧
      (t.margins.Inside t.height →
        Margins.requested t.height (some (t.margins.top + 1)) (some (t.margins.bottom + 1)) =
          t.margins) := by
  intro margins row
  have hobey : t.obey (.margins top bottom) =
      { t with margins, cursor := t.cursor.moveTo 0 row }.tellingCursor :=
    setMargins_eq hh top bottom
  refine ⟨hobey, Margins.requested_inside hh top bottom, ?_, ?_, Margins.requested_of_inside⟩
  · rintro first last rfl rfl hfirst horder hlast
    have hinside : (Margins.mk (first - 1) (last - 1)).Inside t.height := by
      constructor <;> dsimp only <;> omega
    have htaken := Margins.requested_of_inside hinside
    simp only [Nat.sub_add_cancel hfirst,
      Nat.sub_add_cancel (Nat.le_of_lt (Nat.lt_of_le_of_lt hfirst horder))] at htaken
    exact htaken
  · intro hsame
    rw [hobey, hsame]
    rfl

/-- A bottom above the top, under the margin origin: the region is the two rows around the
bottom. -/
theorem margins_as_requested_out_of_order :
    let t := (initial 10 24 1).obey (.origin .margin) |>.terminal
    2 ≤ t.height ∧ Margins.requested t.height (some 20) (some 5) = ⟨3, 4⟩ ∧
      t.obey (.margins (some 20) (some 5)) =
        { t with margins := ⟨3, 4⟩, cursor := t.cursor.moveTo 0 3 }.tellingCursor := by
  intro t
  have hheight : 2 ≤ t.height := by decide
  exact ⟨hheight, by decide, (margins_as_requested hheight (some 20) (some 5)).1⟩

end Terminal

end TermReplay

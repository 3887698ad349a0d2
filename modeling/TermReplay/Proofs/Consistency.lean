import TermReplay.Proofs.WellFormed
import TermReplay.Store.Snapshot

/-!
The check of stored terminals against the parts fitting together. The check counts cells in a
machine word and breaks off where they are too many, so what passes fits together and can be
counted.
-/

namespace TermReplay

theorem require_eq_ok_iff {ε : Type} {condition : Bool} {reason : ε} :
    require condition reason = .ok () ↔ condition = true := by
  cases condition <;> simp [require]

theorem bind_eq_ok_iff {ε α : Type} {first : Except ε Unit} {rest : Unit → Except ε α} {a : α} :
    (first >>= rest) = .ok a ↔ first = .ok () ∧ rest () = .ok a := by
  cases first <;> simp [bind, Except.bind]

theorem require_eq_error_iff {ε : Type} {condition : Bool} {reason e : ε} :
    require condition reason = .error e ↔ condition = false ∧ reason = e := by
  cases condition <;> simp [require]

theorem bind_eq_error_iff {ε α : Type} {first : Except ε Unit} {rest : Unit → Except ε α} {e : ε} :
    (first >>= rest) = .error e ↔ first = .error e ∨ first = .ok () ∧ rest () = .error e := by
  cases first <;> simp [bind, Except.bind]

theorem Stored.le_wordLimit_iff {n : Nat} : n ≤ wordLimit ↔ n < Number.twoTo 64 := by
  have hpos := Number.twoTo_pos 64
  rw [wordLimit]
  omega

theorem Stored.wordLimit_lt_iff {n : Nat} : wordLimit < n ↔ Number.twoTo 64 ≤ n := by
  rw [← Nat.not_le, le_wordLimit_iff, Nat.not_lt]

namespace Grid

variable {g : Grid}

/-- The count is that of all cells, or there is none. -/
theorem cellCount?_eq_some_iff {n : Nat} :
    g.cellCount? = some n ↔ n = g.width * g.height ∧ g.width * g.height ≤ Stored.wordLimit := by
  rw [cellCount?, Number.product?_eq_some_iff, Stored.le_wordLimit_iff]

theorem cellCount?_eq_none_iff :
    g.cellCount? = none ↔ Stored.wordLimit < g.width * g.height := by
  rw [cellCount?, Number.product?_eq_none_iff, Stored.wordLimit_lt_iff]

theorem check_eq_overflow_iff :
    g.check = .error .overflow ↔ Stored.wordLimit < g.width * g.height := by
  by_cases hword : g.width * g.height ≤ Stored.wordLimit
  · simp [check, cellCount?_eq_some_iff.mpr ⟨rfl, hword⟩, bind_eq_error_iff, require_eq_error_iff, hword]
  · have hover := Nat.lt_of_not_le hword
    rw [check, cellCount?_eq_none_iff.mpr hover]
    exact iff_of_true rfl hover

theorem check_eq_ok_iff :
    g.check = .ok () ↔ g.Fits g.width g.height ∧ g.width * g.height ≤ Stored.wordLimit := by
  by_cases hword : g.width * g.height ≤ Stored.wordLimit
  · simp only [check, cellCount?_eq_some_iff.mpr ⟨rfl, hword⟩, bind_eq_ok_iff, require_eq_ok_iff,
      beq_iff_eq]
    constructor
    · rintro ⟨ht, hb, hu, hl, hk, hf, hg, hs⟩
      exact ⟨⟨rfl, rfl, ht, hb, hu, hl, hk, hf, hg, hs⟩, hword⟩
    · rintro ⟨h, -⟩
      exact ⟨h.text, h.bold, h.underline, h.lowIntensity, h.blink, h.foreground, h.background,
        h.sizes⟩
  · rw [check_eq_overflow_iff.mpr (Nat.lt_of_not_le hword)]
    exact iff_of_false nofun fun h => hword h.2

end Grid

theorem SavedCursors.check_eq_ok_iff {s : SavedCursors} {width height : Nat} :
    s.check width height = .ok () ↔ s.Fits width height := by
  have hfind : (s.entries.reverse.find? fun c => width < c.x || height ≤ c.y) = none ↔
      ∀ c ∈ s.entries, c.Inside width height := by
    simp only [List.find?_eq_none, List.mem_reverse, Cursor.Inside, Bool.or_eq_true,
      decide_eq_true_eq, not_or, Nat.not_lt, Nat.not_le]
  simp only [check, bind_eq_ok_iff, require_eq_ok_iff, Bool.and_eq_true, decide_eq_true_eq]
  constructor
  · rintro ⟨⟨hroom, hbounded⟩, hc⟩
    refine ⟨hroom, hbounded, hfind.mp ?_⟩
    cases hf : s.entries.reverse.find? fun c => width < c.x || height ≤ c.y with
    | none => rfl
    | some c => simp [hf] at hc
  · intro h
    refine ⟨⟨h.room, h.bounded⟩, ?_⟩
    rw [hfind.mpr h.inside]

theorem SavedCursors.check_ne_overflow (s : SavedCursors) (width height : Nat) :
    s.check width height ≠ .error .overflow := by
  rw [check, Ne, bind_eq_error_iff, require_eq_error_iff]
  rintro (⟨-, h⟩ | ⟨-, h⟩)
  · cases h
  · split at h <;> cases h

namespace Terminal

variable {t : Terminal}

theorem checkGrid_eq_ok_iff {g : Grid} :
    t.checkGrid g = .ok () ↔
      g.Fits t.width t.height ∧ t.width * t.height ≤ Stored.wordLimit := by
  simp only [checkGrid, bind_eq_ok_iff, require_eq_ok_iff, Bool.and_eq_true, beq_iff_eq,
    Grid.check_eq_ok_iff]
  constructor
  · rintro ⟨⟨hw, hh⟩, hg⟩
    rwa [← hw, ← hh]
  · rintro ⟨h, hword⟩
    rw [h.width_eq, h.height_eq]
    exact ⟨⟨rfl, rfl⟩, h, hword⟩

theorem check_eq_ok_iff :
    t.check = .ok () ↔ t.WellFormed ∧ t.width * t.height ≤ Stored.wordLimit := by
  simp only [check, bind_eq_ok_iff, require_eq_ok_iff, Bool.and_eq_true, decide_eq_true_eq,
    beq_iff_eq, checkGrid_eq_ok_iff, SavedCursors.check_eq_ok_iff]
  constructor
  · rintro ⟨⟨hw, hh⟩, ⟨hp, hword⟩, ⟨ha, -⟩, ht, hm, hc, hs⟩
    exact ⟨⟨rfl, rfl, hw, hh, hp, ha, hc, hs, hm, ht⟩, hword⟩
  · rintro ⟨h, hword⟩
    exact ⟨⟨h.width_pos, h.two_rows⟩, ⟨h.primary, hword⟩, ⟨h.alternate, hword⟩, h.tabs,
      h.margins, h.cursor, h.saved⟩

theorem checkGrid_eq_overflow_iff {g : Grid} :
    t.checkGrid g = .error .overflow ↔
      (g.width = t.width ∧ g.height = t.height) ∧ Stored.wordLimit < t.width * t.height := by
  simp only [checkGrid, bind_eq_error_iff, require_eq_error_iff, require_eq_ok_iff, reduceCtorEq,
    and_false, false_or, Bool.and_eq_true, beq_iff_eq, Grid.check_eq_overflow_iff]
  refine and_congr_right fun ⟨hw, hh⟩ => ?_
  rw [hw, hh]

/-- The first of the two grids is the one that is counted: if it passes, so does the count of the
other, which is as large. -/
theorem check_eq_overflow_iff :
    t.check = .error .overflow ↔
      (1 ≤ t.width ∧ 2 ≤ t.height) ∧ (t.primary.width = t.width ∧ t.primary.height = t.height) ∧
        Stored.wordLimit < t.width * t.height := by
  simp only [check, bind_eq_error_iff, require_eq_error_iff, require_eq_ok_iff, reduceCtorEq,
    and_false, false_or, Bool.and_eq_true, decide_eq_true_eq, checkGrid_eq_overflow_iff,
    checkGrid_eq_ok_iff, t.saved.check_ne_overflow, or_false]
  refine and_congr_right fun _ => or_iff_left ?_
  rintro ⟨⟨-, hword⟩, -, hover⟩
  exact Nat.not_le_of_lt hover hword

theorem ofSnapshot_eq_ok_iff {text : String} :
    ofSnapshot text = .ok t ↔ Stored.ofText text = .ok t ∧ t.check = .ok () := by
  constructor
  · intro h
    simp only [ofSnapshot] at h
    split at h
    · cases h
    · next hread =>
        split at h
        · cases h
        · cases h
        · next hcheck =>
            cases h
            exact ⟨hread, hcheck⟩
  · rintro ⟨hread, hcheck⟩
    simp only [ofSnapshot, hread, hcheck]

/-- A snapshot that is accepted describes a terminal whose parts fit together. -/
theorem wellFormed_of_snapshot {text : String} (h : ofSnapshot text = .ok t) : t.WellFormed :=
  (check_eq_ok_iff.mp (ofSnapshot_eq_ok_iff.mp h).2).1

theorem cells_le_of_snapshot {text : String} (h : ofSnapshot text = .ok t) :
    t.width * t.height ≤ Stored.wordLimit :=
  (check_eq_ok_iff.mp (ofSnapshot_eq_ok_iff.mp h).2).2

end Terminal

end TermReplay

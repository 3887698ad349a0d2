import TermReplay.Proofs.Preservation

/-!
Reactions that report what they change. Every cell of the grid on display that is no longer the
same lies in a reported span, and so does some part of every row whose size changed. Reports of
two reactions join to a report of both.
-/

namespace TermReplay

def Told (notices : List Notice) (row x : Nat) : Prop :=
  ∃ first last, Notice.change row first last ∈ notices ∧ first ≤ x ∧ x ≤ last

def ToldRow (notices : List Notice) (row : Nat) : Prop :=
  ∃ first last, Notice.change row first last ∈ notices

theorem Told.mono {notices more : List Notice} {row x : Nat} (h : Told notices row x)
    (hm : ∀ n ∈ notices, n ∈ more) : Told more row x := by
  obtain ⟨first, last, hn, hx⟩ := h
  exact ⟨first, last, hm _ hn, hx⟩

theorem ToldRow.mono {notices more : List Notice} {row : Nat} (h : ToldRow notices row)
    (hm : ∀ n ∈ notices, n ∈ more) : ToldRow more row := by
  obtain ⟨first, last, hn⟩ := h
  exact ⟨first, last, hm _ hn⟩

def SpansInside (notices : List Notice) (width : Nat) : Prop :=
  ∀ row first last, Notice.change row first last ∈ notices → first ≤ last ∧ last < width

/-- What is told of the changes from the grid `before` to the grid now on display. -/
structure Reaction.Reports (r : Reaction) (before : Grid) (width height : Nat) : Prop where
  cells : ∀ x y, x < width → y < height →
    Told r.notices y x ∨ r.terminal.live.cell x y = before.cell x y
  sizes : ∀ y, y < height →
    ToldRow r.notices y ∨ r.terminal.live.lineSize y = before.lineSize y
  spans : SpansInside r.notices width

theorem SpansInside.append {xs ys : List Notice} {width : Nat} (hx : SpansInside xs width)
    (hy : SpansInside ys width) : SpansInside (xs ++ ys) width := by
  intro row first last h
  obtain h | h := List.mem_append.mp h
  · exact hx row first last h
  · exact hy row first last h

theorem SpansInside.single {row first last width : Nat} (hf : first ≤ last) (hl : last < width) :
    SpansInside [.change row first last] width := by
  intro row' first' last' h
  cases List.mem_singleton.mp h
  exact ⟨hf, hl⟩

theorem spansInside_nil {width : Nat} : SpansInside [] width := by
  intro row first last h
  cases h

def Notice.isChange : Notice → Bool
  | .change .. => true
  | _ => false

theorem spansInside_other {n : Notice} {width : Nat} (h : n.isChange = false) :
    SpansInside [n] width := by
  intro row first last hn
  cases List.mem_singleton.mp hn
  cases h

namespace Reaction.Reports

variable {r : Reaction} {before : Grid} {width height : Nat}

/-- Nothing changed and nothing is told of changes. -/
theorem of_live_eq (hl : r.terminal.live = before) (hs : SpansInside r.notices width) :
    r.Reports before width height where
  cells _ _ _ _ := .inr (by rw [hl])
  sizes _ _ := .inr (by rw [hl])
  spans := hs

theorem andThen {f : Terminal → Reaction} (hr : r.Reports before width height)
    (hf : (f r.terminal).Reports r.terminal.live width height) :
    (r.andThen f).Reports before width height where
  cells := by
    intro x y hx hy
    obtain ht | he := hf.cells x y hx hy
    · exact .inl (ht.mono fun _ hn => List.mem_append_right _ hn)
    · obtain ht | he' := hr.cells x y hx hy
      · exact .inl (ht.mono fun _ hn => List.mem_append_left _ hn)
      · exact .inr (he.trans he')
  sizes := by
    intro y hy
    obtain ht | he := hf.sizes y hy
    · exact .inl (ht.mono fun _ hn => List.mem_append_right _ hn)
    · obtain ht | he' := hr.sizes y hy
      · exact .inl (ht.mono fun _ hn => List.mem_append_left _ hn)
      · exact .inr (he.trans he')
  spans := hr.spans.append hf.spans

/-- A reaction that tells of every row may change all of them. -/
theorem of_every_row (hr : ∀ y, y < height → Notice.change y 0 (width - 1) ∈ r.notices)
    (hs : SpansInside r.notices width) : r.Reports before width height where
  cells x y hx hy := .inl ⟨0, width - 1, hr y hy, Nat.zero_le x, Nat.le_pred_of_lt hx⟩
  sizes y hy := .inl ⟨0, width - 1, hr y hy⟩
  spans := hs

end Reaction.Reports

namespace Terminal

variable {t : Terminal} {width height : Nat}

theorem mem_wholeRows {rows : List Nat} {row first last : Nat} :
    Notice.change row first last ∈ t.wholeRows rows ↔
      row ∈ rows ∧ first = 0 ∧ last = t.lastColumn := by
  simp only [wholeRows, List.mem_map, Notice.change.injEq]
  constructor
  · rintro ⟨y, hy, rfl, rfl, rfl⟩
    exact ⟨hy, rfl, rfl⟩
  · rintro ⟨hy, rfl, rfl⟩
    exact ⟨row, hy, rfl, rfl, rfl⟩

theorem Fits.wholeRows_inside (h : t.Fits width height) (rows : List Nat) :
    SpansInside (t.wholeRows rows) width := by
  intro row first last hm
  obtain ⟨-, rfl, rfl⟩ := mem_wholeRows.mp hm
  exact ⟨Nat.zero_le _, h.lastColumn_lt⟩

theorem Fits.told_wholeRows (h : t.Fits width height) {rows : List Nat} {x y : Nat}
    (hx : x < width) (hy : y ∈ rows) : Told (t.wholeRows rows) y x := by
  refine ⟨0, t.lastColumn, mem_wholeRows.mpr ⟨hy, rfl, rfl⟩, Nat.zero_le x, ?_⟩
  have hw := h.width_eq
  simp only [lastColumn]
  omega

theorem toldRow_wholeRows {rows : List Nat} {y : Nat} (hy : y ∈ rows) :
    ToldRow (t.wholeRows rows) y :=
  ⟨0, t.lastColumn, mem_wholeRows.mpr ⟨hy, rfl, rfl⟩⟩

theorem mem_rowsUpTo {first stop y : Nat} : y ∈ rowsUpTo first stop ↔ first ≤ y ∧ y < stop := by
  rw [rowsUpTo, List.mem_range'_1]
  omega

/-- An edit that leaves every cell outside of one span of one row, and every row size. -/
theorem Fits.reports_span (h : t.Fits width height) {f : Grid → Grid} {row first last : Nat}
    (hf : first ≤ last) (hl : last < width)
    (hcell : ∀ (g : Grid) x y, g.Fits width height → x < width →
      ¬(y = row ∧ first ≤ x ∧ x ≤ last) → (f g).cell x y = g.cell x y)
    (hsize : ∀ (g : Grid) y, (f g).lineSize y = g.lineSize y) :
    ((t.editLive f).telling [.change row first last]).Reports t.live width height where
  cells x y hx _ := by
    by_cases hin : y = row ∧ first ≤ x ∧ x ≤ last
    · obtain ⟨rfl, hx⟩ := hin
      exact .inl ⟨first, last, List.mem_singleton.mpr rfl, hx⟩
    · rw [telling_terminal, editLive_live]
      exact .inr (hcell t.live x y h.live hx hin)
  sizes y _ := .inr (by rw [telling_terminal, editLive_live, hsize])
  spans := .single hf hl

/-- An edit that leaves every row that is not told as a whole. -/
theorem Fits.reports_rows (h : t.Fits width height) {f : Grid → Grid} {notices : List Notice}
    {rows : List Nat} (hn : ∀ n ∈ t.wholeRows rows, n ∈ notices)
    (hs : SpansInside notices width)
    (hcell : ∀ (g : Grid) x y, g.Fits width height → x < width → y ∉ rows →
      (f g).cell x y = g.cell x y)
    (hsize : ∀ (g : Grid) y, g.Fits width height → y ∉ rows →
      (f g).lineSize y = g.lineSize y) :
    ((t.editLive f).telling notices).Reports t.live width height where
  cells x y hx _ := by
    by_cases hy : y ∈ rows
    · exact .inl ((h.told_wholeRows hx hy).mono hn)
    · rw [telling_terminal, editLive_live]
      exact .inr (hcell t.live x y h.live hx hy)
  sizes y _ := by
    by_cases hy : y ∈ rows
    · exact .inl ((toldRow_wholeRows hy).mono hn)
    · rw [telling_terminal, editLive_live]
      exact .inr (hsize t.live y h.live hy)
  spans := hs

end Terminal

/-- What one step leaves, a repetition of it leaves. -/
theorem repeat_keeps {α : Type} {f : Grid → Grid} {width height : Nat} {v : Grid → α}
    (hfits : ∀ g : Grid, g.Fits width height → (f g).Fits width height)
    (hv : ∀ g : Grid, g.Fits width height → v (f g) = v g) (count : Nat) {g : Grid}
    (hg : g.Fits width height) : v (Nat.repeat f count g) = v g := by
  induction count with
  | zero => rfl
  | succ count ih =>
      have hrun := Terminal.repeat_fits hfits count hg
      exact (hv _ hrun).trans ih

/-- Rows beyond both rows that a cycle names stay where they are. -/
theorem cycleSource_outside {remove insert y : Nat}
    (h : y < min remove insert ∨ max remove insert < y) :
    Plane.cycleSource remove insert y = some y := by
  rw [Plane.cycleSource, if_neg (by omega)]
  by_cases hy : y < insert
  · rw [if_pos hy]
    dsimp only
    rw [if_pos (by omega)]
  · rw [if_neg hy]
    dsimp only
    rw [if_neg (by omega)]
    congr 1
    omega

section Cycle

variable {g : Grid} {width height remove insert : Nat}

theorem cell_repeat_cycleRows (hg : g.Fits width height) (hr : remove < height)
    (hi : insert < height) (count : Nat) {x y : Nat} (hx : x < width)
    (hy : y < min remove insert ∨ max remove insert < y) :
    (Nat.repeat (fun g => g.cycleRows remove insert) count g).cell x y = g.cell x y := by
  refine repeat_keeps (v := fun g => g.cell x y) (fun g hg => hg.cycleRows hr hi) ?_ count hg
  intro g hg
  rw [Grid.cell_cycleRows hg hr hi hx, cycleSource_outside hy]

theorem lineSize_repeat_cycleRows (hg : g.Fits width height) (hr : remove < height)
    (hi : insert < height) (count : Nat) {y : Nat}
    (hy : y < min remove insert ∨ max remove insert < y) :
    (Nat.repeat (fun g => g.cycleRows remove insert) count g).lineSize y = g.lineSize y := by
  refine repeat_keeps (v := fun g => g.lineSize y) (fun g hg => hg.cycleRows hr hi) ?_ count hg
  intro g hg
  rw [Grid.lineSize_cycleRows hg hr hi, cycleSource_outside hy]

end Cycle

end TermReplay

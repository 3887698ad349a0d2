import TermReplay.Proofs.FullScreen

/-!
The palette. Ten colours have a digit. An edit of a grid moves cells, blanks them or draws with the
pen, so a grid keeps to the palette when the pen does, and its rows are told without an unknown
colour.
-/

namespace TermReplay

/-- Both colours have a digit. -/
def Pen.InPalette (p : Pen) : Prop := p.foreground ≤ 9 ∧ p.background ≤ 9

instance (p : Pen) : Decidable p.InPalette := inferInstanceAs (Decidable (_ ∧ _))

structure Grid.InPalette (g : Grid) : Prop where
  foreground : ∀ c ∈ g.foreground, c ≤ 9
  background : ∀ c ∈ g.background, c ≤ 9

structure Terminal.InPalette (t : Terminal) : Prop where
  grids : ∀ kind, (t.grid kind).InPalette
  cursor : t.cursor.pen.InPalette
  saved : ∀ c ∈ t.saved.entries, c.pen.InPalette

/-- Every colour is told by its digit. -/
def RowImage.InPalette (r : RowImage) : Prop :=
  '?' ∉ r.foreground.toList ∧ '?' ∉ r.background.toList

def Notice.InPalette : Notice → Prop
  | .scrolled line _ => line.InPalette
  | _ => True

structure Reaction.InPalette (r : Reaction) : Prop where
  terminal : r.terminal.InPalette
  notices : ∀ n ∈ r.notices, n.InPalette

theorem Pen.plain_inPalette : Pen.plain.InPalette := by decide

theorem RowImage.colour_eq_unknown_iff : ∀ c : UInt8, colour c = '?' ↔ ¬c ≤ 9 :=
  TokenKind.forall_byte (by decide +kernel)

namespace Plane

variable {α : Type} {plane middle : Array α} {start stop : Nat} {a value : α}

theorem mem_of_mem_extract (h : a ∈ plane.extract start stop) : a ∈ plane := by
  obtain ⟨i, hi, rfl⟩ := Array.mem_extract_iff_getElem.mp h
  exact Array.getElem_mem _

theorem mem_splice (h : a ∈ splice plane start stop middle) : a ∈ plane ∨ a ∈ middle := by
  rw [splice, Array.mem_append, Array.mem_append] at h
  obtain (h | h) | h := h
  · exact .inl (mem_of_mem_extract h)
  · exact .inr h
  · exact .inl (mem_of_mem_extract h)

theorem mem_overwrite (h : a ∈ overwrite plane start stop value) : a ∈ plane ∨ a = value :=
  (mem_splice h).imp_right Array.eq_of_mem_replicate

theorem mem_shiftIn (h : a ∈ shiftIn plane start stop value) : a ∈ plane ∨ a = value := by
  obtain h | h := mem_splice h
  · exact .inl h
  · obtain h | h := Array.mem_append.mp h
    · exact .inr (Array.mem_singleton.mp h)
    · exact .inl (mem_of_mem_extract h)

theorem mem_shiftOut (h : a ∈ shiftOut plane start stop value) : a ∈ plane ∨ a = value := by
  obtain h | h := mem_splice h
  · exact .inl h
  · obtain h | h := Array.mem_append.mp h
    · exact .inl (mem_of_mem_extract h)
    · exact .inr (Array.mem_singleton.mp h)

theorem mem_cycle {width remove insert : Nat} (h : a ∈ cycle plane width remove insert value) :
    a ∈ plane ∨ a = value := by
  obtain h | h := mem_splice h
  · exact .inl ((mem_splice h).resolve_right (Array.not_mem_empty a))
  · exact .inr (Array.eq_of_mem_replicate h)

/-- What is read, with a default, and what is there. -/
theorem forall_getD_iff {P : α → Prop} (hv : P value) :
    (∀ i : Nat, P (plane[i]?.getD value)) ↔ ∀ a ∈ plane, P a := by
  constructor
  · intro h a ha
    obtain ⟨i, hi, rfl⟩ := Array.getElem_of_mem ha
    have hread := h i
    rwa [Array.getElem?_eq_getElem hi, Option.getD_some] at hread
  · intro h i
    cases hread : plane[i]? with
    | none => exact hv
    | some a => exact h a (Array.mem_of_getElem? hread)

end Plane

namespace Grid

variable {g : Grid} {cell : Cell}

/-- What is read outside of the planes is in the palette too. -/
theorem inPalette_iff_cells : g.InPalette ↔ ∀ x y, (g.cell x y).pen.InPalette := by
  have hforeground : (∀ i : Nat, g.foreground[i]?.getD Pen.plain.foreground ≤ 9) ↔
      ∀ c ∈ g.foreground, c ≤ 9 :=
    Plane.forall_getD_iff (P := (· ≤ 9)) Pen.plain_inPalette.1
  have hbackground : (∀ i : Nat, g.background[i]?.getD Pen.plain.background ≤ 9) ↔
      ∀ c ∈ g.background, c ≤ 9 :=
    Plane.forall_getD_iff (P := (· ≤ 9)) Pen.plain_inPalette.2
  constructor
  · rintro ⟨hf, hb⟩ x y
    exact ⟨hforeground.mpr hf _, hbackground.mpr hb _⟩
  · intro h
    have hcell (i : Nat) : (g.cellAt i).pen.InPalette := by
      have hi := h i 0
      rwa [Grid.cell, index, Nat.zero_mul] at hi
    exact ⟨hforeground.mp fun i => (hcell i).1, hbackground.mp fun i => (hcell i).2⟩

theorem uniform_inPalette (width height : Nat) (hcell : cell.pen.InPalette) :
    (uniform width height cell).InPalette where
  foreground _ hc := Array.eq_of_mem_replicate hc ▸ hcell.1
  background _ hc := Array.eq_of_mem_replicate hc ▸ hcell.2

/-- An edit that adds nothing but one cell. -/
theorem InPalette.edit (h : g.InPalette) (cell : Cell) (hcell : cell.pen.InPalette)
    {f : ∀ {α : Type}, (Cell → α) → Array α → Array α}
    (hf : ∀ {α : Type} (part : Cell → α) (plane : Array α), ∀ a ∈ f part plane,
      a ∈ plane ∨ a = part cell) : (g.edit f).InPalette where
  foreground := by
    intro c hc
    obtain hold | rfl := hf _ _ c hc
    · exact h.foreground c hold
    · exact hcell.1
  background := by
    intro c hc
    obtain hold | rfl := hf _ _ c hc
    · exact h.background c hold
    · exact hcell.2

theorem InPalette.set (h : g.InPalette) (x y : Nat) (hcell : cell.pen.InPalette) :
    (g.set x y cell).InPalette :=
  h.edit cell hcell fun _ _ _ ha => Array.mem_or_eq_of_mem_setIfInBounds ha

theorem InPalette.insertCell (h : g.InPalette) (x y : Nat) (hcell : cell.pen.InPalette) :
    (g.insertCell x y cell).InPalette :=
  h.edit cell hcell fun _ _ _ ha => Plane.mem_shiftIn ha

theorem InPalette.deleteCell (h : g.InPalette) (x y : Nat) : (g.deleteCell x y).InPalette :=
  h.edit .blank Pen.plain_inPalette fun _ _ _ ha => Plane.mem_shiftOut ha

theorem InPalette.overwrite (h : g.InPalette) (start stop : Nat) :
    (g.edit fun part plane => Plane.overwrite plane start stop (part .blank)).InPalette :=
  h.edit .blank Pen.plain_inPalette fun _ _ _ ha => Plane.mem_overwrite ha

theorem InPalette.blankSpan (h : g.InPalette) (y first last : Nat) :
    (g.blankSpan y first last).InPalette := by
  simp only [Grid.blankSpan]
  split
  · exact h
  · exact h.overwrite ..

theorem InPalette.blankRows (h : g.InPalette) (first stop : Nat) :
    (g.blankRows first stop).InPalette := by
  simp only [Grid.blankRows]
  split
  · exact h
  · have hedit := h.overwrite (g.index 0 first) (g.index 0 stop)
    exact { hedit with }

theorem InPalette.fill (h : g.InPalette) (char : Char) : (g.fill char).InPalette := by
  have hedit := h.edit (f := fun part plane => Array.replicate plane.size (part { char }))
    { char } Pen.plain_inPalette fun _ _ _ ha => .inr (Array.eq_of_mem_replicate ha)
  exact { hedit with }

theorem InPalette.cycleRows (h : g.InPalette) (remove insert : Nat) :
    (g.cycleRows remove insert).InPalette := by
  have hedit := h.edit
    (f := fun part plane => Plane.cycle plane g.width remove insert (part .blank))
    .blank Pen.plain_inPalette fun _ _ _ ha => Plane.mem_cycle ha
  exact { hedit with }

theorem InPalette.setLineSize (h : g.InPalette) (y : Nat) (size : LineSize) :
    (g.setLineSize y size).InPalette :=
  { h with }

theorem InPalette.repeat {f : Grid → Grid} (hf : ∀ g : Grid, g.InPalette → (f g).InPalette)
    (count : Nat) (h : g.InPalette) : (Nat.repeat f count g).InPalette := by
  induction count with
  | zero => exact h
  | succ count ih => exact hf _ ih

theorem InPalette.rowImage (h : g.InPalette) (y : Nat) : (g.rowImage y).InPalette := by
  have hplane : ∀ plane : Array UInt8, (∀ c ∈ plane, c ≤ 9) →
      '?' ∉ (String.ofList ((Plane.row plane g.width y).map RowImage.colour)).toList := by
    intro plane hplane hunknown
    rw [String.toList_ofList] at hunknown
    obtain ⟨c, hc, hcolour⟩ := List.mem_map.mp hunknown
    have hmem : c ∈ plane := Plane.mem_of_mem_extract (Array.mem_toList_iff.mp hc)
    exact (RowImage.colour_eq_unknown_iff c).mp hcolour (hplane c hmem)
  exact ⟨hplane _ h.foreground, hplane _ h.background⟩

end Grid

end TermReplay

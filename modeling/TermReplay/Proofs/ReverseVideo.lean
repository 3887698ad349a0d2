import TermReplay.Proofs.FullScreen

/-!
Reverse video over a run of attribute codes. The swap of the two colours is in force or it is not:
as long as no code names a colour or resets the pen, the colours after the run are told by the flag
alone, and the flag by the last code that asked for it.
-/

namespace TermReplay

namespace Cursor

/-- The cursor after some attribute codes in turn. Codes without a meaning leave it as it is. -/
def applyAttributes (c : Cursor) (codes : List Nat) : Cursor :=
  codes.foldl (fun c code => (c.applyAttribute? code).getD c) c

/-- A code that does not reset the pen and names no colour. -/
def KeepsColours (code : Nat) : Prop := code ≠ 0 ∧ ¬(30 ≤ code ∧ code ≤ 49)

instance (code : Nat) : Decidable (KeepsColours code) := inferInstanceAs (Decidable (_ ∧ _))

/-- Whether a code turns reverse video on or off; most do neither. -/
def reversal? (code : Nat) : Option Bool :=
  if code = 7 then some true else if code = 27 then some false else none

def colours (c : Cursor) : UInt8 × UInt8 := (c.pen.foreground, c.pen.background)

/-- The cursor `after` stands where `before` does, and its colours are those of `before`, swapped
if just one of the two is reversed. -/
structure Turned (before after : Cursor) : Prop where
  x_eq : after.x = before.x
  y_eq : after.y = before.y
  colours_eq : after.colours =
    if after.reversed = before.reversed then before.colours else before.colours.swap

variable {c d e : Cursor}

theorem Turned.refl (c : Cursor) : c.Turned c := ⟨rfl, rfl, (if_pos rfl).symm⟩

/-- Two swaps are none. -/
theorem Turned.trans (hcd : c.Turned d) (hde : d.Turned e) : c.Turned e where
  x_eq := hde.x_eq.trans hcd.x_eq
  y_eq := hde.y_eq.trans hcd.y_eq
  colours_eq := by
    rw [hde.colours_eq, hcd.colours_eq]
    cases c.reversed <;> cases d.reversed <;> cases e.reversed <;> simp

theorem setReversed_reversed (c : Cursor) (on : Bool) : (c.setReversed on).reversed = on := by
  unfold setReversed
  split
  · assumption
  · rfl

theorem setReversed_turned (c : Cursor) (on : Bool) : c.Turned (c.setReversed on) := by
  unfold setReversed
  split
  · exact .refl c
  · next h => exact ⟨rfl, rfl, (if_neg (Ne.symm h)).symm⟩

/-- All that a code can do that keeps the colours: it asks for reverse video or against it, or it
leaves the flag, the place and both colours as they are. -/
theorem applyAttribute_cases {code : Nat} (h : KeepsColours code) :
    (∃ on, reversal? code = some on ∧ c.applyAttribute? code = some (c.setReversed on)) ∨
      (reversal? code = none ∧ ∀ d, c.applyAttribute? code = some d →
        d.x = c.x ∧ d.y = c.y ∧ d.reversed = c.reversed ∧ d.colours = c.colours) := by
  obtain ⟨hzero, hcolour⟩ := h
  have hforeground : ¬(30 ≤ code ∧ code ≤ 39) := by omega
  have hbackground : ¬(40 ≤ code ∧ code ≤ 49) := by omega
  unfold applyAttribute?
  split
  · exact absurd rfl hzero
  case h_10 => exact .inl ⟨true, rfl, rfl⟩
  case h_11 => exact .inl ⟨false, rfl, rfl⟩
  case h_14 h7 h27 _ _ =>
    rw [if_neg hforeground, if_neg hbackground, reversal?, if_neg h7, if_neg h27]
    exact .inr ⟨rfl, nofun⟩
  all_goals
    refine .inr ⟨rfl, fun d hd => ?_⟩
    cases hd
    exact ⟨rfl, rfl, rfl, rfl⟩

/-- One code changes the flag as it asks, and swaps the colours if it changes the flag. -/
theorem applyAttribute_turned {code : Nat} (h : KeepsColours code) :
    ((c.applyAttribute? code).getD c).reversed = (reversal? code).getD c.reversed ∧
      c.Turned ((c.applyAttribute? code).getD c) := by
  obtain ⟨on, hcode, happly⟩ | ⟨hcode, hkeeps⟩ := applyAttribute_cases (c := c) h
  · rw [hcode, happly]
    exact ⟨setReversed_reversed c on, setReversed_turned c on⟩
  · rw [hcode]
    cases happly : c.applyAttribute? code with
    | none => exact ⟨rfl, .refl c⟩
    | some d =>
        obtain ⟨hx, hy, hreversed, hcolours⟩ := hkeeps d happly
        refine ⟨hreversed, hx, hy, ?_⟩
        rw [Option.getD_some, if_pos hreversed, hcolours]

/-- A run of codes leaves the flag as it was asked for last, and the colours at most one swap
away. -/
theorem applyAttributes_turned (c : Cursor) {codes : List Nat}
    (h : ∀ code ∈ codes, KeepsColours code) :
    (c.applyAttributes codes).reversed = (codes.filterMap reversal?).getLastD c.reversed ∧
      c.Turned (c.applyAttributes codes) := by
  induction codes generalizing c with
  | nil => exact ⟨rfl, .refl c⟩
  | cons code codes ih =>
      obtain ⟨hcode, hcodes⟩ := List.forall_mem_cons.mp h
      obtain ⟨hflag, hturned⟩ := applyAttribute_turned (c := c) hcode
      obtain ⟨hlast, hrest⟩ := ih ((c.applyAttribute? code).getD c) hcodes
      refine ⟨hlast.trans ?_, hturned.trans hrest⟩
      rw [hflag, List.filterMap_cons]
      cases reversal? code with
      | none => rfl
      | some on => rw [List.getLastD_cons, Option.getD_some]

end Cursor

namespace Terminal

/-- A terminal that is told attribute codes one by one changes its cursor and nothing else. -/
theorem obeyAll_attributes (t : Terminal) (codes : List Nat) :
    (obeyAll (codes.map .«attribute») t).terminal =
      { t with cursor := t.cursor.applyAttributes codes } := by
  induction codes generalizing t with
  | nil => rfl
  | cons code codes ih =>
      have hone : (t.obey (.«attribute» code)).terminal =
          { t with cursor := (t.cursor.applyAttribute? code).getD t.cursor } := by
        show (t.applyAttribute code).terminal = _
        rw [applyAttribute]
        cases t.cursor.applyAttribute? code <;> rfl
      rw [List.map_cons, obeyAll, each, Reaction.andThen_terminal, hone]
      exact ih _

end Terminal

namespace Cursor

/-- Whatever attribute codes follow each other, with or without a meaning and repeated at will, as
long as none of them resets the pen or names a colour: reverse video is on or off as the last code
that asks for either says, the two colours are those at the start, swapped exactly if the flag is
not the one at the start, and the cursor stays where it is. A terminal that obeys the codes one by
one is left with this cursor. -/
theorem colours_follow_last_reversal (c : Cursor) {codes : List Nat}
    (h : ∀ code ∈ codes, KeepsColours code) :
    let after := c.applyAttributes codes
    after.reversed = (codes.filterMap reversal?).getLastD c.reversed ∧
      (after.pen.foreground, after.pen.background) =
        (if after.reversed = c.reversed then (c.pen.foreground, c.pen.background)
          else (c.pen.background, c.pen.foreground)) ∧
      (after.x, after.y) = (c.x, c.y) ∧
      ∀ t : Terminal, t.cursor = c →
        (Terminal.obeyAll (codes.map .«attribute») t).terminal = { t with cursor := after } := by
  obtain ⟨hlast, hturned⟩ := c.applyAttributes_turned h
  refine ⟨hlast, hturned.colours_eq, ?_, ?_⟩
  · rw [hturned.x_eq, hturned.y_eq]
  · rintro t rfl
    exact t.obeyAll_attributes codes

/-- Asked for twice, given up, asked for again, with other attributes and a code without a meaning
in between. -/
theorem colours_follow_last_of_many :
    let c : Cursor := { x := 4, y := 1, pen := { foreground := 3, background := 5 } }
    let codes := [7, 1, 7, 99, 27, 4, 7]
    (∀ code ∈ codes, KeepsColours code) ∧
      (c.applyAttributes codes).reversed = true ∧
      ((c.applyAttributes codes).pen.foreground, (c.applyAttributes codes).pen.background) =
        (5, 3) ∧
      ((c.applyAttributes codes).x, (c.applyAttributes codes).y) = (4, 1) := by
  intro c codes
  have hcodes : ∀ code ∈ codes, KeepsColours code := by decide
  obtain ⟨hlast, hcolours, hplace, -⟩ := c.colours_follow_last_reversal hcodes
  have hon : (c.applyAttributes codes).reversed = true := hlast
  rw [hon] at hcolours
  exact ⟨hcodes, hon, hcolours, hplace⟩

end Cursor

end TermReplay

import TermReplay.Terminal.Obey

/-!
Composition of reactions. Joining is associative with silence as its unit, so what a run of
commands does depends on their order only and not on how the run is cut.
-/

namespace TermReplay

namespace Reaction

@[simp] theorem andThen_terminal (r : Reaction) (f : Terminal → Reaction) :
    (r.andThen f).terminal = (f r.terminal).terminal := rfl

@[simp] theorem andThen_notices (r : Reaction) (f : Terminal → Reaction) :
    (r.andThen f).notices = r.notices ++ (f r.terminal).notices := rfl

theorem ext_parts {r s : Reaction} (ht : r.terminal = s.terminal) (hn : r.notices = s.notices) :
    r = s := by
  cases r
  cases s
  cases ht
  cases hn
  rfl

theorem andThen_assoc (r : Reaction) (f g : Terminal → Reaction) :
    (r.andThen f).andThen g = r.andThen fun t => (f t).andThen g :=
  ext_parts rfl (List.append_assoc ..)

theorem andThen_quietly (r : Reaction) : r.andThen Terminal.quietly = r :=
  ext_parts rfl (List.append_nil _)

end Reaction

namespace Terminal

@[simp] theorem quietly_terminal (t : Terminal) : t.quietly.terminal = t := rfl

theorem moveTo_self (t : Terminal) : t.moveTo t.cursor.x t.cursor.y = t := rfl

@[simp] theorem telling_terminal (t : Terminal) (notices : List Notice) :
    (t.telling notices).terminal = t := rfl

@[simp] theorem telling_notices (t : Terminal) (notices : List Notice) :
    (t.telling notices).notices = notices := rfl

section EditLive

variable (t : Terminal) (f : Grid → Grid)

@[simp] theorem editLive_width : (t.editLive f).width = t.width := by
  unfold editLive
  split <;> rfl

@[simp] theorem editLive_height : (t.editLive f).height = t.height := by
  unfold editLive
  split <;> rfl

@[simp] theorem editLive_cursor : (t.editLive f).cursor = t.cursor := by
  unfold editLive
  split <;> rfl

@[simp] theorem editLive_modes : (t.editLive f).modes = t.modes := by
  unfold editLive
  split <;> rfl

@[simp] theorem editLive_margins : (t.editLive f).margins = t.margins := by
  unfold editLive
  split <;> rfl

@[simp] theorem editLive_designations : (t.editLive f).designations = t.designations := by
  unfold editLive
  split <;> rfl

@[simp] theorem editLive_live : (t.editLive f).live = f t.live := by
  rw [live, editLive_modes, live, editLive]
  cases ht : t.modes.screen <;> rfl

@[simp] theorem editLive_lastColumn : (t.editLive f).lastColumn = t.lastColumn := by
  rw [lastColumn, editLive_width, lastColumn]

@[simp] theorem editLive_column : (t.editLive f).column = t.column := by
  rw [column, editLive_lastColumn, editLive_cursor, column]

@[simp] theorem editLive_wholeRows (rows : List Nat) :
    (t.editLive f).wholeRows rows = t.wholeRows rows := by
  rw [wholeRows, editLive_lastColumn, wholeRows]

theorem editLive_tellingRest :
    (t.editLive f).tellingRest =
      (t.editLive f).telling [.change t.cursor.y t.column t.lastColumn] := by
  rw [tellingRest, editLive_cursor, editLive_column, editLive_lastColumn]

theorem editLive_editLive (g : Grid → Grid) :
    (t.editLive f).editLive g = t.editLive fun grid => g (f grid) := by
  unfold editLive
  cases ht : t.modes.screen <;> simp [ht]

theorem editLive_live_const : (t.editLive fun _ => f t.live) = t.editLive f := by
  unfold editLive live grid
  cases t.modes.screen <;> rfl

theorem editLive_id : t.editLive id = t := by
  unfold editLive
  split <;> rfl

theorem editLive_moveTo (x y : Nat) : (t.moveTo x y).editLive f = (t.editLive f).moveTo x y := by
  simp only [editLive, moveTo]
  cases t.modes.screen <;> rfl

end EditLive

variable {α β : Type}

theorem each_append (f : α → Terminal → Reaction) (xs ys : List α) (t : Terminal) :
    each f (xs ++ ys) t = (each f xs t).andThen (each f ys) := by
  induction xs generalizing t with
  | nil => rfl
  | cons x xs ih =>
      simp only [List.cons_append, each, Reaction.andThen_assoc]
      congr 1
      funext t
      exact ih t

theorem each_singleton (f : α → Terminal → Reaction) (x : α) (t : Terminal) :
    each f [x] t = f x t :=
  Reaction.andThen_quietly (f x t)

theorem each_map (f : β → Terminal → Reaction) (g : α → β) (xs : List α) (t : Terminal) :
    each f (xs.map g) t = each (fun x => f (g x)) xs t := by
  induction xs generalizing t with
  | nil => rfl
  | cons x xs ih =>
      simp only [List.map_cons, each]
      congr 1
      funext t
      exact ih t

/-- What every part of a run keeps, the run keeps. -/
theorem each_keeps {P : Terminal → Prop} {f : α → Terminal → Reaction}
    (step : ∀ x t, P t → P (f x t).terminal) (xs : List α) {t : Terminal} (h : P t) :
    P (each f xs t).terminal := by
  induction xs generalizing t with
  | nil => exact h
  | cons x xs ih => exact ih (step x t h)

/-- Scrolling is an edit of the grid on display, with a notice for each step. -/
theorem cycleRows_terminal (remove insert : Nat) (direction : Int) (count : Nat) (t : Terminal) :
    (cycleRows remove insert direction count t).terminal =
      t.editLive (Nat.repeat (fun g => g.cycleRows remove insert) count) := by
  induction count generalizing t with
  | zero => exact (editLive_id t).symm
  | succ count ih =>
      have hcomm : ∀ (n : Nat) (g : Grid),
          Nat.repeat (fun g => g.cycleRows remove insert) n (g.cycleRows remove insert) =
            (Nat.repeat (fun g => g.cycleRows remove insert) n g).cycleRows remove insert := by
        intro n g
        induction n with
        | zero => rfl
        | succ n ihn => exact congrArg (fun g => Grid.cycleRows g remove insert) ihn
      simp only [cycleRows, Reaction.andThen_terminal, telling_terminal, ih, editLive_editLive,
        hcomm]
      rfl

end Terminal

end TermReplay

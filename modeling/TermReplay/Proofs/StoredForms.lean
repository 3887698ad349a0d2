import TermReplay.Proofs.SchemaReading
import TermReplay.Store.Form

/-!
Stored forms that give back what was stored. The shape takes the form, and the form is turned
into the value that it was made from. This is asked of a value, since sizes and positions have to
fit a machine word; a type is lossless if it holds of all its values.
-/

namespace TermReplay

open Json (Schema Filled)
open Stored (schema toJson ofJson?)

namespace Stored

structure Restores {α : Type} [Stored α] (a : α) : Prop where
  accepts : (schema α).Accepts (toJson a)
  ofJson : ofJson? (toJson a) = some a

class Lossless (α : Type) [Stored α] : Prop where
  restores : ∀ a : α, Restores a

/-- What was written as text is read again. -/
theorem Restores.ofText {α : Type} [Stored α] {a : α} (h : Restores a) :
    Stored.ofText (toText a) = .ok a := by
  have hread := h.accepts.readText
  simp only [Stored.ofText, toText, hread, h.ofJson, bind, Except.bind]

/-- The form of a record is opened field by field. -/
theorem Restores.bind_eq {α β : Type} [Stored α] {a : α} (h : Restores a) {rest : α → Option β}
    {b : Option β} (hrest : rest a = b) : (ofJson? (toJson a) >>= rest) = b := by
  rw [h.ofJson]
  exact hrest

section Scalars

/-- A number is read back if it fits a machine word. -/
theorem nat_restores {n : Nat} (h : n ≤ wordLimit) : Restores n where
  accepts := Schema.accepts_natural h (Nat.le_refl _)
  ofJson := rfl

instance : Lossless UInt8 where
  restores b := {
    accepts := Schema.accepts_natural (Nat.le_of_lt_succ b.toNat_lt) (by decide)
    ofJson := congrArg some UInt8.ofNat_toNat }

instance : Lossless Bool where
  restores b := ⟨Schema.accepts_bool b, rfl⟩

instance : Lossless String where
  restores s := ⟨Schema.accepts_string s, rfl⟩

instance : Lossless Char where
  restores c := {
    accepts := Schema.accepts_char c
    ofJson := by
      show (String.singleton c).toList.head? = some c
      rw [String.toList_singleton, List.head?_cons] }

end Scalars

section Lists

variable {α : Type} [Stored α]

theorem mapM_ofJson {xs : List α} (h : ∀ a ∈ xs, Restores a) :
    (xs.map toJson).mapM ofJson? = some xs := by
  induction xs with
  | nil => rfl
  | cons a xs ih =>
      have ha := (h a (List.mem_cons_self ..)).ofJson
      have hxs := ih fun b hb => h b (List.mem_cons_of_mem _ hb)
      rw [List.map_cons, List.mapM_cons, ha, hxs]
      rfl

theorem list_restores {xs : List α} (h : ∀ a ∈ xs, Restores a) : Restores xs where
  accepts := Schema.accepts_list fun v hv => by
    obtain ⟨a, ha, rfl⟩ := List.mem_map.mp hv
    exact (h a ha).accepts
  ofJson := mapM_ofJson h

instance [Lossless α] : Lossless (List α) where
  restores _ := list_restores fun a _ => Lossless.restores a

instance [Lossless α] : Lossless (Array α) where
  restores xs := {
    accepts := (Lossless.restores xs.toList).accepts
    ofJson := congrArg (Option.map List.toArray) (Lossless.restores xs.toList).ofJson }

end Lists

section Names

/-- A name that finds its value is one of the names. -/
theorem named_restores {α : Type} [Named α] {a : α}
    (h : Named.ofName? (Named.name a) = some a) : Restores a where
  accepts := Schema.accepts_name (List.mem_map_of_mem (List.mem_of_find?_eq_some h))
  ofJson := h

instance : Lossless LineWidth where
  restores w := named_restores (by cases w <;> rfl)

instance : Lossless LineHeight where
  restores h := named_restores (by cases h <;> rfl)

instance : Lossless Slot where
  restores s := named_restores (by cases s <;> rfl)

instance : Lossless CharacterSet where
  restores s := named_restores (by cases s <;> rfl)

instance : Lossless ScrollStyle where
  restores s := named_restores (by cases s <;> rfl)

instance : Lossless Origin where
  restores o := named_restores (by cases o <;> rfl)

instance : Lossless ScreenKind where
  restores s := named_restores (by cases s <;> rfl)

instance : Lossless NewLine where
  restores n := named_restores (by cases n <;> rfl)

instance : Lossless Keypad where
  restores k := named_restores (by cases k <;> rfl)

end Names

/-- The shape of a lossless type takes every value that it writes. -/
theorem accepts {α : Type} [Stored α] [Lossless α] (a : α) : (schema α).Accepts (toJson a) :=
  (Lossless.restores a).accepts

end Stored

end TermReplay

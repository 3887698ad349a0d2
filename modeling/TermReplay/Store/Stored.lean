import TermReplay.Json.Schema
import TermReplay.Number.Power

/-!
Types with a stored form: a shape of JSON values, and the two directions between the type and
values of that shape.
-/

namespace TermReplay

open Json (Schema)

class Stored (α : Type) where
  schema : Schema
  toJson : α → Json
  ofJson? : Json → Option α

namespace Stored

/-- The largest size or position that is stored. -/
def wordLimit : Nat := Number.twoTo 64 - 1

instance : Stored Nat where
  schema := .natural wordLimit
  toJson := .natural
  ofJson?
    | .natural n => some n
    | _ => none

instance : Stored UInt8 where
  schema := .natural 255
  toJson b := .natural b.toNat
  ofJson?
    | .natural n => some (UInt8.ofNat n)
    | _ => none

instance : Stored Bool where
  schema := .bool
  toJson := .bool
  ofJson?
    | .bool b => some b
    | _ => none

instance : Stored Float where
  schema := .float
  toJson := .float
  ofJson?
    | .float f => some f
    | _ => none

instance : Stored String where
  schema := .string
  toJson := .string
  ofJson?
    | .string s => some s
    | _ => none

instance : Stored Char where
  schema := .char
  toJson c := .string (String.singleton c)
  ofJson?
    | .string s => s.toList.head?
    | _ => none

instance {α : Type} [Stored α] : Stored (List α) where
  schema := .list (schema α)
  toJson xs := .array (xs.map toJson)
  ofJson?
    | .array items => items.mapM ofJson?
    | _ => none

instance {α : Type} [Stored α] : Stored (Array α) where
  schema := .list (schema α)
  toJson xs := toJson xs.toList
  ofJson? v := (ofJson? v : Option (List α)).map List.toArray

def ofText {α : Type} [Stored α] (text : String) : Except Json.Fault α := do
  let value ← (schema α).readText text
  match ofJson? value with
  | some a => .ok a
  | none => .error .mismatched

def toText {α : Type} [Stored α] (a : α) : String := (toJson a).text

end Stored

/-- Types whose values are stored by name. -/
class Named (α : Type) where
  all : List α
  name : α → String

namespace Named

def ofName? {α : Type} [Named α] (s : String) : Option α :=
  (all : List α).find? (name · == s)

instance {α : Type} [Named α] : Stored α where
  schema := .name ((all : List α).map name)
  toJson a := .string (name a)
  ofJson?
    | .string s => ofName? s
    | _ => none

end Named

end TermReplay

import TermReplay.Json.Quoted
import TermReplay.Number.Shortest

/-!
JSON values and their written form: indented by two blanks for each level, one member or item on
a line. Objects keep the order of their members.
-/

namespace TermReplay

inductive Json
  | null
  | bool (value : Bool)
  | natural (value : Nat)
  | float (value : Float)
  | string (value : String)
  | array (items : List Json)
  | object (members : List (String × Json))
  deriving Repr, Inhabited

namespace Json

def newLine (level : Nat) : List Char :=
  '\n' :: List.replicate (2 * level) ' '

mutual

def write (level : Nat) : Json → List Char
  | .null => "null".toList
  | .bool b => if b then "true".toList else "false".toList
  | .natural n => Nat.toDigits 10 n
  | .float f => (Number.shortest f).toList
  | .string s => quote s
  | .array [] => ['[', ']']
  | .array (v :: vs) =>
    '[' :: newLine (level + 1) ++ write (level + 1) v ++ writeItems (level + 1) vs ++
      newLine level ++ [']']
  | .object [] => ['{', '}']
  | .object ((key, v) :: ms) =>
    '{' :: newLine (level + 1) ++ quote key ++ ':' :: ' ' :: write (level + 1) v ++
      writeMembers (level + 1) ms ++ newLine level ++ ['}']

/-- The items after the first, each with the comma before it. -/
def writeItems (level : Nat) : List Json → List Char
  | [] => []
  | v :: vs => ',' :: newLine level ++ write level v ++ writeItems level vs

def writeMembers (level : Nat) : List (String × Json) → List Char
  | [] => []
  | (key, v) :: ms =>
    ',' :: newLine level ++ quote key ++ ':' :: ' ' :: write level v ++ writeMembers level ms

end

def text (v : Json) : String := String.ofList (v.write 0)

end Json

end TermReplay

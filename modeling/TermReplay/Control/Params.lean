/-!
Parameter lists of control sequences: byte strings between semicolons, most of them decimal
numbers that stop counting at 65535.
-/

namespace TermReplay.Params

def semicolon : UInt8 := 0x3b

/-- Cuts at every semicolon; there is always at least one part, and parts may be empty. -/
def split : List UInt8 → List (List UInt8)
  | [] => [[]]
  | b :: bs =>
    if b = semicolon then [] :: split bs
    else
      match split bs with
      | part :: parts => (b :: part) :: parts
      | [] => [[b]]

def limit : Nat := 65535

def saturate (n : Nat) : Nat := min n limit

def isDigit (b : UInt8) : Bool := 0x30 ≤ b && b ≤ 0x39

def digitValue (b : UInt8) : Nat := b.toNat - 0x30

def appendDigit (acc : Nat) (b : UInt8) : Nat :=
  saturate (saturate (acc * 10) + digitValue b)

/-- A parameter is absent when it is empty and a number when it has digits only; anything else
is not a parameter of this kind. -/
def number? (part : List UInt8) : Option (Option Nat) :=
  if part.isEmpty then some none
  else if part.all isDigit then some (some (part.foldl appendDigit 0))
  else none

def numbers? (params : List UInt8) : Option (List (Option Nat)) :=
  (split params).mapM number?

end TermReplay.Params

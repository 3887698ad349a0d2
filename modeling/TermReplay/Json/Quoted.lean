import TermReplay.Json.Fault
import TermReplay.Text.Escaped

/-!
Quoted text, written and read. A reader has two results: the text, and the place where a reader
that only skips it would go on. Skipping asks for less, since surrogates may stand alone there.
-/

namespace TermReplay.Json

/-- Only quotes, backslashes and control characters are escaped. -/
def escapeChar (c : Char) : List Char :=
  if c = '\x22' ∨ c = '\x5c' then ['\x5c', c]
  else if c = '\x08' then ['\x5c', 'b']
  else if c = '\x0c' then ['\x5c', 'f']
  else if c = '\n' then ['\x5c', 'n']
  else if c = '\r' then ['\x5c', 'r']
  else if c = '\t' then ['\x5c', 't']
  else if c.toNat < 0x20 then
    '\x5c' :: 'u' :: '0' :: '0' :: Text.hexByte (UInt8.ofNat c.toNat)
  else [c]

def quote (s : String) : List Char :=
  '\x22' :: s.toList.flatMap escapeChar ++ ['\x22']

/-- Where reading goes on after a value that was skipped. -/
abbrev Rest := Except Fault (List Char)

namespace Reading

def hexValue? (c : Char) : Option Nat :=
  let n := c.toNat
  if 48 ≤ n ∧ n ≤ 57 then some (n - 48)
  else if 97 ≤ n ∧ n ≤ 102 then some (n - 87)
  else if 65 ≤ n ∧ n ≤ 70 then some (n - 55)
  else none

def hexUnit? (a b c d : Char) : Option Nat := do
  let a ← hexValue? a
  let b ← hexValue? b
  let c ← hexValue? c
  let d ← hexValue? d
  return ((a * 16 + b) * 16 + c) * 16 + d

/-- The fault of an escape without four hexadecimal digits: the text counts as ended if fewer
than four bytes are left. -/
def unitFault (cs : List Char) : Fault :=
  if (cs.take 4).foldl (fun n c => n + c.utf8Size) 0 < 4 then .truncated else .malformed

def unit : List Char → Except Fault Nat
  | a :: b :: c :: d :: rest =>
    match hexUnit? a b c d with
    | some n => .ok n
    | none => .error (unitFault (a :: b :: c :: d :: rest))
  | cs => .error (unitFault cs)

def shortEscape? (c : Char) : Option Char :=
  match c with
  | '\x22' => some '\x22'
  | '\x5c' => some '\x5c'
  | '/' => some '/'
  | 'b' => some '\x08'
  | 'f' => some '\x0c'
  | 'n' => some '\n'
  | 'r' => some '\r'
  | 't' => some '\t'
  | _ => none

def isLeading (n : Nat) : Bool := 0xd800 ≤ n && n ≤ 0xdbff

def isTrailing (n : Nat) : Bool := 0xdc00 ≤ n && n ≤ 0xdfff

/-- What follows a leading surrogate: the trailing one of its pair, or a fault. -/
def trailing : List Char → Except Fault Nat
  | [] => .error .truncated
  | '\x5c' :: [] => .error .truncated
  | '\x5c' :: 'u' :: cs =>
    match unit cs with
    | .ok n => if isTrailing n then .ok n else .error .malformed
    | .error f => .error f
  | _ => .error .malformed

def pairChar (lead trail : Nat) : Char :=
  Char.ofNat ((lead - 0xd800) * 1024 + (trail - 0xdc00) + 0x10000)

def consChar (c : Char) (text : Except Fault (List Char)) : Except Fault (List Char) :=
  text.map (c :: ·)

/-- Reads text up to the closing quote. `pair` is the leading surrogate whose trailing one, known
to be there, comes next. -/
def quoted (pair : Option Nat) : List Char → Except Fault (List Char) × Rest
  | [] => (.error .truncated, .error .truncated)
  | c :: cs =>
    if c = '\x22' then (.ok [], .ok cs)
    else if c = '\x5c' then
      match cs with
      | [] => (.error .truncated, .error .truncated)
      | e :: cs =>
        if e = 'u' then
          match unit cs with
          | .error f => (.error f, .error f)
          | .ok n =>
            match cs with
            | _ :: _ :: _ :: _ :: cs =>
              match pair with
              | some lead =>
                let (text, rest) := quoted none cs
                (consChar (pairChar lead n) text, rest)
              | none =>
                if isLeading n then
                  match trailing cs with
                  | .ok _ => quoted (some n) cs
                  | .error f => (.error f, (quoted none cs).2)
                else if isTrailing n then (.error .malformed, (quoted none cs).2)
                else
                  let (text, rest) := quoted none cs
                  (consChar (Char.ofNat n) text, rest)
            | _ => (.error .truncated, .error .truncated)
        else
          match shortEscape? e with
          | none => (.error .malformed, .error .malformed)
          | some e =>
            let (text, rest) := quoted none cs
            (consChar e text, rest)
    else if c.toNat < 0x20 then (.error .malformed, .error .malformed)
    else
      let (text, rest) := quoted none cs
      (consChar c text, rest)

def text (cs : List Char) : Except Fault String × Rest :=
  let (text, rest) := quoted none cs
  (text.map String.ofList, rest)

end Reading

end TermReplay.Json

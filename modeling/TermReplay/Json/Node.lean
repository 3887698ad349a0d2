import TermReplay.Json.Numeral
import TermReplay.Json.Quoted

/-!
Reading JSON text into a tree that goes as far as the text is JSON. A reader returns what it has
seen together with the place where a reader that only skips the value would go on, or the fault
that stops it. Skipping asks for less: numbers may be out of range and surrogates alone.
What shape a value should have is asked of the tree afterwards, from left to right.
-/

namespace TermReplay.Json

/-- How the members of an array or object end. The flag tells whether a comma stands before. -/
inductive Close
  | proper
  /-- Something that cannot stand here, such as a key that is no string, or the end of the
  text. -/
  | cut (fault : Fault) (afterComma : Bool)
  /-- A key without a value. -/
  | noValue (key : Except Fault String) (fault : Fault) (afterComma : Bool)
  deriving Repr

inductive Node
  /-- The text ends here. -/
  | absent
  /-- No value begins here. -/
  | broken (fault : Fault)
  | null
  | bool (value : Bool)
  | number (value : Except Fault Numeral)
  | string (value : Except Fault String)
  | array (items : List Node) (close : Close)
  | object (members : List (Except Fault String × Node)) (close : Close)

namespace Reading

def isBlank (c : Char) : Bool := c = ' ' || c = '\n' || c = '\t' || c = '\r'

def dropBlank (cs : List Char) : List Char := cs.dropWhile isBlank

/-- Reads the rest of a word, of which the first letter was seen. -/
def expect : List Char → List Char → Rest
  | [], cs => .ok cs
  | _ :: _, [] => .error .truncated
  | w :: ws, c :: cs => if c = w then expect ws cs else .error .malformed

def digitFault : List Char → Fault
  | [] => .truncated
  | _ :: _ => .malformed

def cutExponent (spelling : Spelling) : List Char → Except Fault Spelling × Rest
  | [] => (.ok spelling, .ok [])
  | c :: cs =>
    if c = 'e' || c = 'E' then
      let (negative, digits) :=
        match cs with
        | '+' :: cs => (false, cs)
        | '-' :: cs => (true, cs)
        | cs => (false, cs)
      if (digits.takeWhile Char.isDigit).isEmpty then
        (.error (digitFault digits), .error .malformed)
      else
        (.ok { spelling with exponent := some (negative, digits.takeWhile Char.isDigit) },
          .ok (digits.dropWhile Char.isDigit))
    else (.ok spelling, .ok (c :: cs))

def cutFraction (spelling : Spelling) : List Char → Except Fault Spelling × Rest
  | '.' :: cs =>
    if (cs.takeWhile Char.isDigit).isEmpty then (.error (digitFault cs), .error .malformed)
    else
      cutExponent { spelling with fraction := some (cs.takeWhile Char.isDigit) }
        (cs.dropWhile Char.isDigit)
  | cs => cutExponent spelling cs

/-- A number from its first digit on. A zero in front stands alone. -/
def cutNumber (negative : Bool) : List Char → Except Fault Spelling × Rest
  | [] => (.error .truncated, .error .malformed)
  | c :: cs =>
    if c = '0' then
      if cs.head?.any Char.isDigit then (.error .malformed, .error .malformed)
      else cutFraction ⟨negative, ['0'], none, none⟩ cs
    else if c.isDigit then
      cutFraction ⟨negative, c :: cs.takeWhile Char.isDigit, none, none⟩
        (cs.dropWhile Char.isDigit)
    else (.error .malformed, .error .malformed)

def number (negative : Bool) (cs : List Char) : Node × Rest :=
  let (spelling, rest) := cutNumber negative cs
  (.number (spelling.bind Spelling.numeral), rest)

def word (letters : String) (node : Node) (cs : List Char) : Node × Rest :=
  match expect letters.toList cs with
  | .ok rest => (node, .ok rest)
  | .error f => (.broken f, .error f)

def scalar : List Char → Node × Rest
  | [] => (.absent, .error .truncated)
  | c :: cs =>
    if c = 'n' then word "ull" .null cs
    else if c = 't' then word "rue" (.bool true) cs
    else if c = 'f' then word "alse" (.bool false) cs
    else if c = '\x22' then
      let (text, rest) := text cs
      (.string text, rest)
    else if c = '-' then number true cs
    else if c.isDigit then number false (c :: cs)
    else (.broken .malformed, .error .malformed)

mutual

/-- A value from its first character on. Every call reads at least one character in two steps,
which bounds the steps by the length of the text. -/
def value : Nat → List Char → Node × Rest
  | 0, _ => (.broken .malformed, .error .malformed)
  | fuel + 1, cs =>
    match cs with
    | '[' :: cs =>
      match dropBlank cs with
      | ']' :: rest => (.array [] .proper, .ok rest)
      | [] => (.array [] (.cut .truncated false), .error .truncated)
      | cs =>
        let (nodes, close, rest) := items fuel false cs
        (.array nodes close, rest)
    | '{' :: cs =>
      match dropBlank cs with
      | '}' :: rest => (.object [] .proper, .ok rest)
      | cs =>
        let (nodes, close, rest) := members fuel false cs
        (.object nodes close, rest)
    | cs => scalar cs

def items : Nat → Bool → List Char → List Node × Close × Rest
  | 0, _, _ => ([], .cut .malformed false, .error .malformed)
  | fuel + 1, afterComma, cs =>
    match value fuel cs with
    | (node, .error f) => ([node], .cut f afterComma, .error f)
    | (node, .ok rest) =>
      match dropBlank rest with
      | ']' :: rest => ([node], .proper, .ok rest)
      | [] => ([node], .cut .truncated false, .error .truncated)
      | ',' :: rest =>
        match dropBlank rest with
        | [] => ([node], .cut .truncated true, .error .truncated)
        | ']' :: _ => ([node], .cut .malformed true, .error .malformed)
        | rest =>
          let (nodes, close, rest) := items fuel true rest
          (node :: nodes, close, rest)
      | _ => ([node], .cut .malformed false, .error .malformed)

def members : Nat → Bool → List Char → List (Except Fault String × Node) × Close × Rest
  | 0, _, _ => ([], .cut .malformed false, .error .malformed)
  | fuel + 1, afterComma, cs =>
    match cs with
    | [] => ([], .cut .truncated afterComma, .error .truncated)
    | '\x22' :: cs =>
      match text cs with
      | (key, .error f) => ([], .noValue key f afterComma, .error f)
      | (key, .ok rest) =>
        match dropBlank rest with
        | ':' :: rest =>
          match value fuel (dropBlank rest) with
          | (node, .error f) => ([(key, node)], .cut f afterComma, .error f)
          | (node, .ok rest) =>
            match dropBlank rest with
            | '}' :: rest => ([(key, node)], .proper, .ok rest)
            | [] => ([(key, node)], .cut .truncated false, .error .truncated)
            | ',' :: rest =>
              let (nodes, close, rest) := members fuel true (dropBlank rest)
              ((key, node) :: nodes, close, rest)
            | _ => ([(key, node)], .cut .malformed false, .error .malformed)
        | [] => ([], .noValue key .truncated afterComma, .error .truncated)
        | _ => ([], .noValue key .malformed afterComma, .error .malformed)
    | _ => ([], .cut .malformed afterComma, .error .malformed)

end

def document (text : String) : Node × Rest :=
  let cs := text.toList
  value (2 * cs.length + 2) (dropBlank cs)

end Reading

end TermReplay.Json

import TermReplay.Json.Node
import TermReplay.Json.Value

/-!
Shapes of JSON values. A tree that was read is checked against a shape from left to right, and
the first problem is the one that counts. A record may be written as an object, in any order and
with further members, or as an array of its fields; what comes out is the object with exactly
the fields of the shape in their order, so that all ways to write a value become one.
-/

namespace TermReplay.Json

mutual

inductive Schema
  /-- A natural number up to a limit. -/
  | natural (limit : Nat)
  /-- Any number, as binary64. -/
  | float
  | bool
  | string
  /-- A string of one character. -/
  | char
  /-- One of some names. -/
  | name (names : List String)
  | list (item : Schema)
  | exactly (count : Nat) (item : Schema)
  | record (fields : Fields)

/-- The fields of a record; a field with a default may be left out. -/
inductive Fields
  | nil
  | cons (name : String) (schema : Schema) (default : Option Json) (rest : Fields)

end

namespace Schema

/-- The fault of a value of another kind than the one asked for. Words, numbers and strings are
read to their end first. -/
def wrongKind : Node → Fault
  | .absent => .truncated
  | .broken f => f
  | .number (.error f) => f
  | .string (.error f) => f
  | _ => .mismatched

def readNatural (limit : Nat) : Node → Except Fault Json
  | .number (.ok (.natural n)) => if n ≤ limit then .ok (.natural n) else .error .mismatched
  | node => .error (wrongKind node)

def readFloat : Node → Except Fault Json
  | .number (.ok (.natural n)) => .ok (.float n.toUInt64.toFloat)
  | .number (.ok (.negative n)) => .ok (.float (-n.toUInt64.toFloat))
  | .number (.ok (.float f)) => .ok (.float f)
  | node => .error (wrongKind node)

def readBool : Node → Except Fault Json
  | .bool b => .ok (.bool b)
  | node => .error (wrongKind node)

def readString : Node → Except Fault Json
  | .string (.ok s) => .ok (.string s)
  | node => .error (wrongKind node)

def readChar : Node → Except Fault Json
  | .string (.ok s) =>
    match s.toList with
    | [_] => .ok (.string s)
    | _ => .error .mismatched
  | node => .error (wrongKind node)

def knownName (names : List String) (s : String) : Except Fault Json :=
  if names.contains s then .ok (.string s) else .error .mismatched

/-- A name may also be written as an object with the name for its only key and null for its
value. Nothing else can begin a name, not even another kind of value. -/
def readName (names : List String) : Node → Except Fault Json
  | .absent => .error .truncated
  | .string (.ok s) => knownName names s
  | .string (.error f) => .error f
  | .object [] close =>
    match close with
    | .proper => .error .malformed
    | .cut f _ => .error f
    | .noValue key f _ => do
      let _ ← knownName names (← key)
      .error f
  | .object ((key, node) :: others) close => do
    let name ← knownName names (← key)
    match node with
    | .null => pure ()
    | node => .error (wrongKind node)
    match others, close with
    | [], .proper => .ok name
    | [], .cut f false => .error f
    | _, _ => .error .malformed
  | _ => .error .malformed

def closeFault? : Close → Option Fault
  | .proper => none
  | .cut f _ => some f
  | .noValue _ f _ => some f

/-- The fault of an array that should be over after its last item: nothing may follow a comma. -/
def endFault? : List Node → Close → Option Fault
  | [], .proper => none
  | [], .cut f false => some f
  | _, _ => some .malformed

def readList (item : Node → Except Fault Json) : Node → Except Fault Json
  | .array nodes close => do
    let values ← nodes.mapM item
    match closeFault? close with
    | some f => .error f
    | none => .ok (.array values)
  | node => .error (wrongKind node)

/-- Reads one value for each reader, which may have a default for missing items; the items that
are left over are returned. -/
def readItems (close : Close) :
    List ((Node → Except Fault Json) × Option Json) → List Node →
      Except Fault (List Json × List Node)
  | [], nodes => .ok ([], nodes)
  | (read, _) :: readers, node :: nodes => do
    let value ← read node
    let (values, left) ← readItems close readers nodes
    .ok (value :: values, left)
  | (_, default) :: readers, [] =>
    match closeFault? close, default with
    | some f, _ => .error f
    | none, none => .error .mismatched
    | none, some value => do
      let (values, left) ← readItems close readers []
      .ok (value :: values, left)

def readExactly (readers : List ((Node → Except Fault Json) × Option Json)) :
    Node → Except Fault (List Json)
  | .array nodes close => do
    let (values, left) ← readItems close readers nodes
    match endFault? left close with
    | some f => .error f
    | none => .ok values
  | node => .error (wrongKind node)

structure Reader where
  name : String
  read : Node → Except Fault Json
  default : Option Json

/-- Reads the members of an object in order. Unknown members are skipped, and known ones may not
come twice. -/
def readMembers (readers : List Reader) :
    List (Except Fault String × Node) → List (String × Json) →
      Except Fault (List (String × Json))
  | [], found => .ok found
  | (key, node) :: members, found => do
    let key ← key
    match readers.find? (·.name == key) with
    | none => readMembers readers members found
    | some reader =>
      if (found.lookup key).isSome then .error .mismatched
      else
        let value ← reader.read node
        readMembers readers members ((key, value) :: found)

/-- The fault of an object at its end. A key seen before is a fault of its own even if nothing
comes after it. -/
def objectFault? (found : List (String × Json)) : Close → Option Fault
  | .noValue (.error f) _ _ => some f
  | .noValue (.ok key) f _ => some (if (found.lookup key).isSome then .mismatched else f)
  | close => closeFault? close

def Reader.choose (found : List (String × Json)) (r : Reader) : Except Fault (String × Json) :=
  match found.lookup r.name, r.default with
  | some value, _ => .ok (r.name, value)
  | none, some value => .ok (r.name, value)
  | none, none => .error .mismatched

def readRecord (readers : List Reader) : Node → Except Fault Json
  | .object members close => do
    let found ← readMembers readers members []
    match objectFault? found close with
    | some f => .error f
    | none => .object <$> readers.mapM (Reader.choose found)
  | node => do
    let values ← readExactly (readers.map fun r => (r.read, r.default)) node
    .ok (.object ((readers.map (·.name)).zip values))

end Schema

mutual

def Schema.read : Schema → Node → Except Fault Json
  | .natural limit => Schema.readNatural limit
  | .float => Schema.readFloat
  | .bool => Schema.readBool
  | .string => Schema.readString
  | .char => Schema.readChar
  | .name names => Schema.readName names
  | .list item => Schema.readList item.read
  | .exactly count item => fun node =>
    Json.array <$> Schema.readExactly (List.replicate count (item.read, none)) node
  | .record fields => Schema.readRecord fields.readers

def Fields.readers : Fields → List Schema.Reader
  | .nil => []
  | .cons name schema default rest => ⟨name, schema.read, default⟩ :: rest.readers

end

/-- Reads a whole text as a value of a shape; nothing but blanks may follow the value. -/
def Schema.readText (schema : Schema) (text : String) : Except Fault Json := do
  let (node, rest) := Reading.document text
  let value ← schema.read node
  let rest ← rest
  if (Reading.dropBlank rest).isEmpty then .ok value else .error .malformed

def Fields.ofList : List (String × Schema) → Fields
  | [] => .nil
  | (name, schema) :: rest => .cons name schema none (ofList rest)

def Fields.withDefaults : List (String × Schema) → List Json → Fields
  | (name, s) :: fields, value :: values => .cons name s (some value) (withDefaults fields values)
  | _, _ => .nil

/-- An object with the names of the fields and the given values, in order. -/
def labelled (fields : List (String × Schema)) (values : List Json) : Json :=
  .object ((fields.map (·.1)).zip values)

def memberValues : Json → List Json
  | .object members => members.map (·.2)
  | _ => []

end TermReplay.Json

import TermReplay.Playback.Basic
import TermReplay.Store.Form

/-!
The stored forms of frozen players and bookmarks.
-/

namespace TermReplay

open Json (Schema Fields labelled memberValues)
open Stored (schema toJson ofJson?)

namespace Duration

def fields : List (String × Schema) :=
  [("secs", schema Nat), ("nanos", .natural (second - 1))]

instance : Stored Duration where
  schema := .record (Fields.ofList fields)
  toJson d := labelled fields [toJson d.seconds, toJson d.subsecond]
  ofJson? v :=
    match memberValues v with
    | [seconds, nanoseconds] => do
      return ofSeconds (← ofJson? seconds) (← ofJson? nanoseconds)
    | _ => none

end Duration

namespace Frozen

def streamFields : List (String × Schema) := [("pending", schema (List UInt8))]

def fields : List (String × Schema) :=
  [("parser", .record (Fields.ofList streamFields)), ("emulator", schema Terminal)]

instance : Stored Frozen where
  schema := .record (Fields.ofList fields)
  toJson f := labelled fields [labelled streamFields [toJson f.pending], toJson f.terminal]
  ofJson? v :=
    match memberValues v with
    | [stream, terminal] =>
      match memberValues stream with
      | [pending] => do return { pending := ← ofJson? pending, terminal := ← ofJson? terminal }
      | _ => none
    | _ => none

end Frozen

namespace Bookmark

def fields : List (String × Schema) :=
  [("player", schema Frozen), ("next", schema Nat), ("clock", schema Duration)]

instance : Stored Bookmark where
  schema := .record (Fields.ofList fields)
  toJson b := labelled fields [toJson b.frozen, toJson b.next, toJson b.clock]
  ofJson? v :=
    match memberValues v with
    | [frozen, next, clock] => do
      return { frozen := ← ofJson? frozen, next := ← ofJson? next, clock := ← ofJson? clock }
    | _ => none

end Bookmark

end TermReplay

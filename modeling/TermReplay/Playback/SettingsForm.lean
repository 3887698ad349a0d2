import TermReplay.Playback.Settings
import TermReplay.Store.Stored

/-!
The stored form of settings: sections whose fields may all be left out, and the sections too.
-/

namespace TermReplay

open Json (Schema Fields labelled memberValues)
open Stored (schema toJson ofJson?)

namespace TerminalSettings

def fields : List (String × Schema) :=
  [("columns", schema Nat), ("rows", schema Nat), ("cursor_stack_depth", schema Nat),
    ("scrollback_lines", schema Nat)]

def values (s : TerminalSettings) : List Json :=
  [toJson s.columns, toJson s.rows, toJson s.savedCursors, toJson s.historyLines]

instance : Stored TerminalSettings where
  schema := .record (Fields.withDefaults fields (values {}))
  toJson s := labelled fields s.values
  ofJson? v :=
    match memberValues v with
    | [columns, rows, savedCursors, historyLines] => do
      return {
        columns := ← ofJson? columns
        rows := ← ofJson? rows
        savedCursors := ← ofJson? savedCursors
        historyLines := ← ofJson? historyLines }
    | _ => none

end TerminalSettings

namespace StreamSettings

def fields : List (String × Schema) := [("max_pending_bytes", schema Nat)]

def values (s : StreamSettings) : List Json := [toJson s.maxPending]

instance : Stored StreamSettings where
  schema := .record (Fields.withDefaults fields (values {}))
  toJson s := labelled fields s.values
  ofJson? v :=
    match memberValues v with
    | [maxPending] => do return { maxPending := ← ofJson? maxPending }
    | _ => none

end StreamSettings

namespace TimingSettings

def rateLimit : Nat := Number.twoTo 32 - 1

def fields : List (String × Schema) :=
  [("max_records_per_tick", schema Nat), ("speed", schema Float),
    ("tick_rate", .natural rateLimit)]

def values (s : TimingSettings) : List Json :=
  [toJson s.chunksPerTick, toJson s.speed, toJson s.tickRate]

instance : Stored TimingSettings where
  schema := .record (Fields.withDefaults fields (values {}))
  toJson s := labelled fields s.values
  ofJson? v :=
    match memberValues v with
    | [chunksPerTick, speed, tickRate] => do
      return {
        chunksPerTick := ← ofJson? chunksPerTick
        speed := ← ofJson? speed
        tickRate := ← ofJson? tickRate }
    | _ => none

end TimingSettings

namespace Settings

def fields : List (String × Schema) :=
  [("terminal", schema TerminalSettings), ("parser", schema StreamSettings),
    ("replay", schema TimingSettings)]

def values (s : Settings) : List Json := [toJson s.terminal, toJson s.stream, toJson s.timing]

instance : Stored Settings where
  schema := .record (Fields.withDefaults fields (values {}))
  toJson s := labelled fields s.values
  ofJson? v :=
    match memberValues v with
    | [terminal, stream, timing] => do
      return {
        terminal := ← ofJson? terminal
        stream := ← ofJson? stream
        timing := ← ofJson? timing }
    | _ => none

end Settings

end TermReplay

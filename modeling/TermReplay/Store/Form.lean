import TermReplay.Store.Names

/-!
The stored forms of the parts of a terminal and of the whole. A form fixes the names of the
fields and their order; both directions go through the list of field values.
-/

namespace TermReplay

open Json (Schema Fields labelled memberValues)
open Stored (schema toJson ofJson?)

def uniformFields (s : Schema) (names : List String) : List (String × Schema) :=
  names.map fun name => (name, s)

namespace LineSize

def fields : List (String × Schema) :=
  [("width", schema LineWidth), ("height", schema LineHeight)]

instance : Stored LineSize where
  schema := .record (Fields.ofList fields)
  toJson s := labelled fields [toJson s.width, toJson s.height]
  ofJson? v :=
    match memberValues v with
    | [width, height] => do
      return { width := ← ofJson? width, height := ← ofJson? height }
    | _ => none

end LineSize

namespace Grid

def fields : List (String × Schema) :=
  [("width", schema Nat), ("height", schema Nat), ("text", schema (Array Char))] ++
    uniformFields (schema (Array Bool)) ["bold", "underline", "lowintensity", "blink"] ++
    uniformFields (schema (Array UInt8)) ["fcolor", "bcolor"] ++
    [("line_attr", schema (Array LineSize))]

instance : Stored Grid where
  schema := .record (Fields.ofList fields)
  toJson g :=
    labelled fields
      [toJson g.width, toJson g.height, toJson g.text, toJson g.bold, toJson g.underline,
        toJson g.lowIntensity, toJson g.blink, toJson g.foreground, toJson g.background,
        toJson g.sizes]
  ofJson? v :=
    match memberValues v with
    | [width, height, text, bold, underline, lowIntensity, blink, foreground, background,
        sizes] => do
      return {
        width := ← ofJson? width
        height := ← ofJson? height
        text := ← ofJson? text
        bold := ← ofJson? bold
        underline := ← ofJson? underline
        lowIntensity := ← ofJson? lowIntensity
        blink := ← ofJson? blink
        foreground := ← ofJson? foreground
        background := ← ofJson? background
        sizes := ← ofJson? sizes }
    | _ => none

end Grid

namespace Cursor

def fields : List (String × Schema) :=
  uniformFields (schema Nat) ["x", "y"] ++
    uniformFields (schema Bool)
      ["bold", "underline", "lowintensity", "blink", "reversed", "invisible"] ++
    uniformFields (schema UInt8) ["fcolor", "bcolor"]

instance : Stored Cursor where
  schema := .record (Fields.ofList fields)
  toJson c :=
    labelled fields
      [toJson c.x, toJson c.y, toJson c.pen.bold, toJson c.pen.underline,
        toJson c.pen.lowIntensity, toJson c.pen.blink, toJson c.reversed, toJson c.invisible,
        toJson c.pen.foreground, toJson c.pen.background]
  ofJson? v :=
    match memberValues v with
    | [x, y, bold, underline, lowIntensity, blink, reversed, invisible, foreground,
        background] => do
      let pen : Pen := {
        bold := ← ofJson? bold
        underline := ← ofJson? underline
        lowIntensity := ← ofJson? lowIntensity
        blink := ← ofJson? blink
        foreground := ← ofJson? foreground
        background := ← ofJson? background }
      return {
        x := ← ofJson? x
        y := ← ofJson? y
        pen
        reversed := ← ofJson? reversed
        invisible := ← ofJson? invisible }
    | _ => none

end Cursor

namespace SavedCursors

def fields : List (String × Schema) :=
  [("saved", schema (List Cursor)), ("depth", schema Nat)]

/-- Saved cursors are stored oldest first. -/
instance : Stored SavedCursors where
  schema := .record (Fields.ofList fields)
  toJson s := labelled fields [toJson s.entries.reverse, toJson s.depth]
  ofJson? v :=
    match memberValues v with
    | [saved, depth] => do
      let saved : List Cursor ← ofJson? saved
      return { entries := saved.reverse, depth := ← ofJson? depth }
    | _ => none

end SavedCursors

namespace Modes

def fields : List (String × Schema) :=
  [("cursor_key_ansi", schema Bool), ("keypad", schema Keypad), ("scroll", schema ScrollStyle),
    ("reverse_screen", schema Bool), ("origin", schema Origin), ("auto_wrap", schema Bool),
    ("auto_repeat", schema Bool), ("mouse_tracking_down", schema Bool),
    ("mouse_tracking_up", schema Bool), ("current_screen", schema ScreenKind),
    ("keyboard_locked", schema Bool), ("insert", schema Bool), ("local_echo", schema Bool),
    ("new_line", schema NewLine), ("cursor_visible", schema Bool)]

instance : Stored Modes where
  schema := .record (Fields.ofList fields)
  toJson m :=
    labelled fields
      [toJson m.cursorKeyAnsi, toJson m.keypad, toJson m.scroll, toJson m.reverseScreen,
        toJson m.origin, toJson m.autoWrap, toJson m.autoRepeat, toJson m.mouseDown,
        toJson m.mouseUp, toJson m.screen, toJson m.keyboardLocked, toJson m.insert,
        toJson m.localEcho, toJson m.newLine, toJson m.cursorVisible]
  ofJson? v :=
    match memberValues v with
    | [cursorKeyAnsi, keypad, scroll, reverseScreen, origin, autoWrap, autoRepeat, mouseDown,
        mouseUp, screen, keyboardLocked, insert, localEcho, newLine, cursorVisible] => do
      return {
        cursorKeyAnsi := ← ofJson? cursorKeyAnsi
        keypad := ← ofJson? keypad
        scroll := ← ofJson? scroll
        reverseScreen := ← ofJson? reverseScreen
        origin := ← ofJson? origin
        autoWrap := ← ofJson? autoWrap
        autoRepeat := ← ofJson? autoRepeat
        mouseDown := ← ofJson? mouseDown
        mouseUp := ← ofJson? mouseUp
        screen := ← ofJson? screen
        keyboardLocked := ← ofJson? keyboardLocked
        insert := ← ofJson? insert
        localEcho := ← ofJson? localEcho
        newLine := ← ofJson? newLine
        cursorVisible := ← ofJson? cursorVisible }
    | _ => none

end Modes

namespace Margins

def fields : List (String × Schema) := uniformFields (schema Nat) ["top", "bottom"]

instance : Stored Margins where
  schema := .record (Fields.ofList fields)
  toJson m := labelled fields [toJson m.top, toJson m.bottom]
  ofJson? v :=
    match memberValues v with
    | [top, bottom] => do return { top := ← ofJson? top, bottom := ← ofJson? bottom }
    | _ => none

end Margins

namespace Designations

def fields : List (String × Schema) :=
  [("g0", schema CharacterSet), ("g1", schema CharacterSet), ("active", schema Slot)]

instance : Stored Designations where
  schema := .record (Fields.ofList fields)
  toJson d := labelled fields [toJson d.g0, toJson d.g1, toJson d.active]
  ofJson? v :=
    match memberValues v with
    | [g0, g1, active] => do
      return { g0 := ← ofJson? g0, g1 := ← ofJson? g1, active := ← ofJson? active }
    | _ => none

end Designations

instance : Stored Leds where
  schema := .exactly 4 .bool
  toJson l := .array [toJson l.led1, toJson l.led2, toJson l.led3, toJson l.led4]
  ofJson?
    | .array [a, b, c, d] => do
      return {
        led1 := ← ofJson? a
        led2 := ← ofJson? b
        led3 := ← ofJson? c
        led4 := ← ofJson? d }
    | _ => none

namespace Terminal

def fields : List (String × Schema) :=
  [("width", schema Nat), ("height", schema Nat), ("screens", .exactly 2 (schema Grid)),
    ("cursor", schema Cursor), ("cursor_stack", schema SavedCursors), ("modes", schema Modes),
    ("margins", schema Margins), ("tabs", schema (Array Bool)),
    ("window_title", schema String), ("icon_title", schema String),
    ("charsets", schema Designations), ("leds", schema Leds)]

def gridsOf? : Json → Option (Grid × Grid)
  | .array [primary, alternate] => do return (← ofJson? primary, ← ofJson? alternate)
  | _ => none

instance : Stored Terminal where
  schema := .record (Fields.ofList fields)
  toJson t :=
    labelled fields
      [toJson t.width, toJson t.height, .array [toJson t.primary, toJson t.alternate],
        toJson t.cursor, toJson t.saved, toJson t.modes, toJson t.margins, toJson t.tabs,
        toJson t.windowTitle, toJson t.iconTitle, toJson t.designations, toJson t.leds]
  ofJson? v :=
    match memberValues v with
    | [width, height, screens, cursor, saved, modes, margins, tabs, windowTitle, iconTitle,
        designations, leds] => do
      let (primary, alternate) ← gridsOf? screens
      return {
        width := ← ofJson? width
        height := ← ofJson? height
        primary
        alternate
        cursor := ← ofJson? cursor
        saved := ← ofJson? saved
        modes := ← ofJson? modes
        margins := ← ofJson? margins
        tabs := ← ofJson? tabs
        windowTitle := ← ofJson? windowTitle
        iconTitle := ← ofJson? iconTitle
        designations := ← ofJson? designations
        leds := ← ofJson? leds }
    | _ => none

end Terminal

end TermReplay

import TermReplay.Control.Command
import TermReplay.Control.Params
import TermReplay.Text.Escaped

/-!
Control sequences taken apart, and what each of them asks for. Mode, attribute, report and lamp
sequences are lists whose parameters count one by one; every other sequence is a single command.
-/

namespace TermReplay

/-- A complete control sequence: marker, parameters, intermediates and a final byte, with the
bytes it was read from. -/
structure ControlSequence where
  raw : List UInt8
  marker : Option UInt8
  params : List UInt8
  intermediates : List UInt8
  final : UInt8
  deriving DecidableEq, Repr

namespace ControlSequence

open Text

def unhandled (s : ControlSequence) : List Output :=
  [.warning ("Unhandled control sequence: " ++ escapeBytes s.raw)]

def key (s : ControlSequence) (part : List UInt8) : String :=
  ascii (s.marker.toList ++ part)

def quoted (s : String) : String := "\x22" ++ s ++ "\x22"

def modeCommands? (key : String) (set : Bool) : Option (List Command) :=
  let screen := if set then ScreenKind.alternate else ScreenKind.primary
  match key with
  | "?1" => some [.mode (.cursorKeyAnsi !set)]
  | "?2" => if set then none else some [.mode (.vt52 true)]
  | "?3" => some [.mode (.columns (if set then 132 else 80))]
  | "?4" => some [.mode (.scroll (if set then .smooth else .jump))]
  | "?5" => some [.mode (.reverseScreen set)]
  | "?6" => some [.origin (if set then .margin else .screen)]
  | "?7" => some [.mode (.autoWrap set)]
  | "?8" => some [.mode (.autoRepeat set)]
  | "?9" => some [.mode (.mouseDown set)]
  | "?25" => some [.mode (.cursorVisible set)]
  | "?47" => some [.mode (.screen screen)]
  | "?1047" => some [.mode (.screen screen)]
  | "?1000" => some [.mode (.mouseUp set)]
  | "?1049" =>
    if set then some [.saveCursor, .mode (.screen screen), .eraseInDisplay .whole]
    else some [.mode (.screen screen), .restoreCursor]
  | "2" => some [.mode (.keyboardLocked set)]
  | "4" => some [.mode (.insert set)]
  | "12" => some [.mode (.localEcho !set)]
  | "20" => some [.mode (.newLine (if set then .feedAndReturn else .feed))]
  | _ => none

def modeOutputs (s : ControlSequence) (set : Bool) (part : List UInt8) : List Output :=
  match modeCommands? (s.key part) set with
  | some commands => commands.map .command
  | none =>
    [.warning ("Unhandled " ++ (if set then "set" else "reset") ++ " mode: " ++
      quoted (s.key part))]

def reportOutput (s : ControlSequence) (part : List UInt8) : Output :=
  match s.key part with
  | "5" => .command (.report .status)
  | "6" => .command (.report .cursorPosition)
  | "?15" => .command (.report .printer)
  | key => .warning ("Unhandled report request: " ++ quoted key)

/-- An empty attribute parameter means zero. -/
def attributeOutput (part : List UInt8) : Output :=
  match Params.number? part with
  | some n => .command (.attribute (n.getD 0))
  | none => .warning ("Unhandled attribute: " ++ escapeBytes part)

def ledOutput (part : List UInt8) : Output :=
  match Params.number? part with
  | some none | some (some 0) => .command .ledsOff
  | some (some n) => .command (.led n)
  | none => .warning ("Unhandled LED: " ++ escapeBytes part)

def eraseScope? : Option Nat → Option EraseScope
  | none | some 0 => some .toEnd
  | some 1 => some .toStart
  | some 2 => some .whole
  | _ => none

/-- A count is at least one: absent and zero both mean one. -/
def countOf (n : Option Nat) : Nat := max 1 (n.getD 1)

/-- The single command of a sequence without marker and intermediates whose parameters are all
numbers or absent. -/
def plainCommand? (s : ControlSequence) (nums : List (Option Nat)) : Option Command :=
  let first := nums.head?.join
  let second := nums[1]?.join
  let count := countOf first
  let bare := s.params.isEmpty
  match Char.ofNat s.final.toNat with
  | 'A' => some (.arrow .up count)
  | 'B' => some (.arrow .down count)
  | 'C' => some (.arrow .right count)
  | 'D' => some (.arrow .left count)
  | 'H' => some (if bare then .home else .goto (first.getD 1) (second.getD 1))
  | 'f' => some (if bare then .home else .goto (first.getD 1) (second.getD 1))
  | 'G' => some (.gotoColumn count)
  | 'd' => some (.gotoRow count)
  | 'K' => (eraseScope? first).map .eraseInLine
  | 'J' => (eraseScope? first).map .eraseInDisplay
  | '@' => some (.insertChars count)
  | 'P' => some (.deleteChars count)
  | 'X' => some (.eraseChars count)
  | 'L' => some (.insertLines count)
  | 'M' => some (.deleteLines count)
  | 'S' => some (.scrollUp count)
  | 'T' => if nums.length ≤ 1 then some (.scrollDown count) else none
  | 'g' =>
    match first with
    | none | some 0 => some .clearTab
    | some 3 => some .clearAllTabs
    | _ => none
  | 'c' => if first.getD 0 = 0 then some (.report .deviceAttributes) else none
  | 'r' => some (if bare then .resetMargins else .margins first second)
  | 's' => if bare then some .saveCursor else none
  | 'u' => if bare then some .restoreCursor else none
  | _ => none

def plainOutputs (s : ControlSequence) : List Output :=
  match Char.ofNat s.final.toNat with
  | 'h' => (Params.split s.params).flatMap (s.modeOutputs true)
  | 'l' => (Params.split s.params).flatMap (s.modeOutputs false)
  | 'n' => (Params.split s.params).map s.reportOutput
  | 'm' => (Params.split s.params).map attributeOutput
  | 'q' => (Params.split s.params).map ledOutput
  | 'y' => [.command (.selfTest (ascii s.params))]
  | _ =>
    match (Params.numbers? s.params).bind s.plainCommand? with
    | some command => [.command command]
    | none => s.unhandled

def outputs (s : ControlSequence) : List Output :=
  match s.marker, s.intermediates with
  | none, [] => s.plainOutputs
  | some 0x3f, [] =>
    match Char.ofNat s.final.toNat with
    | 'h' => (Params.split s.params).flatMap (s.modeOutputs true)
    | 'l' => (Params.split s.params).flatMap (s.modeOutputs false)
    | 'n' => (Params.split s.params).map s.reportOutput
    | _ => s.unhandled
  | some 0x3e, [] => if s.final = 0x63 then [.command (.report .version)] else s.unhandled
  | none, [0x21] => if s.final = 0x70 then [.command .softReset] else s.unhandled
  | _, _ => s.unhandled

end ControlSequence

end TermReplay

import TermReplay.Control.Sequence
import TermReplay.Text.Utf8

/-!
Recognizers of tokens. Each looks at the front of a byte buffer and claims a number of bytes there
or declines, and it declines while the buffer holds only the beginning of its token.
-/

namespace TermReplay

open Text

/-- A claim on the first `length` bytes of a buffer. -/
structure Token where
  length : Nat
  outputs : List Output
  deriving DecidableEq, Repr

namespace Token

def command (length : Nat) (c : Command) : Token := ⟨length, [.command c]⟩

def warning (length : Nat) (message : String) : Token := ⟨length, [.warning message]⟩

def silent (length : Nat) : Token := ⟨length, []⟩

end Token

abbrev Recognizer := List UInt8 → Option Token

namespace Recognizer

def escapeCode : UInt8 := 0x1b

def bellCode : UInt8 := 0x07

def isPrintable (b : UInt8) : Bool := 0x20 ≤ b && b ≤ 0x7e

def isIntermediate (b : UInt8) : Bool := 0x20 ≤ b && b ≤ 0x2f

def controlCommand? (b : UInt8) : Option Command :=
  match b.toNat with
  | 0x07 => some .bell
  | 0x08 => some .backspace
  | 0x09 => some .tab
  | 0x0a => some .lineFeed
  | 0x0b => some .verticalTab
  | 0x0c => some .formFeed
  | 0x0d => some .carriageReturn
  | 0x0e => some (.useSlot .g1)
  | 0x0f => some (.useSlot .g0)
  | _ => none

def control : Recognizer
  | [] => none
  | b :: _ => (controlCommand? b).map (Token.command 1)

/-- Control bytes without a meaning here, and delete. -/
def isIgnored (b : UInt8) : Bool :=
  b ≤ 0x06 || (0x10 ≤ b && b ≤ 0x1a) || (0x1c ≤ b && b ≤ 0x1f) || b == 0x7f

def ignoredControl : Recognizer
  | [] => none
  | b :: _ => if isIgnored b then some (.silent 1) else none

/-- A run of printable ASCII, as long as the buffer shows it. -/
def asciiRun : Recognizer := fun buffer =>
  let run := buffer.takeWhile isPrintable
  if run.isEmpty then none else some (.command run.length (.print (ascii run)))

def isHigh (b : UInt8) : Bool := 0x80 ≤ b

def multiByte : Recognizer
  | [] => none
  | b :: bs =>
    if isHigh b then
      match Utf8.front (b :: bs) with
      | .complete n =>
        some (.command n (.print (String.singleton (Utf8.character ((b :: bs).take n)))))
      | _ => none
    else none

/-- A high byte that neither is nor begins a character. Only this byte is given up. -/
def invalidByte : Recognizer
  | [] => none
  | b :: bs =>
    if isHigh b then
      match Utf8.front (b :: bs) with
      | .invalid _ =>
        some ⟨1, [.warning ("invalid UTF-8 byte " ++ namedByte b),
          .command (.print (String.singleton Utf8.replacement))]⟩
      | _ => none
    else none

def isMarker (b : UInt8) : Bool := 0x3c ≤ b && b ≤ 0x3f

def isParam (b : UInt8) : Bool := 0x30 ≤ b && b ≤ 0x3b

def isFinal (b : UInt8) : Bool := 0x40 ≤ b && b ≤ 0x7e

def cutMarker : List UInt8 → Option UInt8 × List UInt8
  | [] => (none, [])
  | b :: bs => if isMarker b then (some b, bs) else (none, b :: bs)

/-- A control sequence. A byte that cannot go on or end it is left to be read on its own, and
the bytes before it are given up. -/
def controlSequence : Recognizer
  | 0x1b :: 0x5b :: body =>
    let (marker, afterMarker) := cutMarker body
    let params := afterMarker.takeWhile isParam
    let afterParams := afterMarker.dropWhile isParam
    let intermediates := afterParams.takeWhile isIntermediate
    match afterParams.dropWhile isIntermediate with
    | [] => none
    | final :: _ =>
      let head := 0x1b :: 0x5b :: (marker.toList ++ params ++ intermediates)
      if isFinal final then
        let sequence : ControlSequence :=
          { raw := head ++ [final], marker, params, intermediates, final }
        some ⟨head.length + 1, sequence.outputs⟩
      else
        some (.warning head.length ("Malformed control sequence: " ++ escapeBytes head))
  | _ => none

def escapeCommand? (b : UInt8) : Option Command :=
  match Char.ofNat b.toNat with
  | 'D' => some .index
  | 'M' => some .reverseIndex
  | 'E' => some .nextLine
  | '7' => some .saveCursor
  | '8' => some .restoreCursor
  | '=' => some (.mode (.keypad .application))
  | '>' => some (.mode (.keypad .numeric))
  | 'H' => some .setTab
  | 'c' => some .reset
  | 'Z' => some (.report .deviceAttributes)
  | _ => none

def unhandledEscape (bytes : List UInt8) : String :=
  "Unhandled escape sequence: " ++ escapeBytes bytes

/-- The character after a single shift is part of it if it is printable. -/
def singleShift (slot : ShiftSlot) : List UInt8 → Option Token
  | [] => none
  | b :: _ =>
    if isPrintable b then some (.command 3 (.singleShift slot (Char.ofNat b.toNat)))
    else some (.warning 2 ("single shift cut short by " ++ namedByte b))

def characterSet? (b : UInt8) : Option CharacterSet :=
  match Char.ofNat b.toNat with
  | 'A' => some .uk
  | 'B' => some .us
  | '0' => some .line
  | '1' => some .rom
  | '2' => some .romSpecial
  | _ => none

def designation (slot : Slot) (opener : UInt8) : List UInt8 → Option Token
  | [] => none
  | b :: _ =>
    match characterSet? b with
    | some set => some (.command 3 (.designate slot set))
    | none =>
      some (.warning 3
        ("Unhandled charset designation: " ++ escapeBytes [escapeCode, opener, b]))

def lineCommand? (b : UInt8) : Option Command :=
  match Char.ofNat b.toNat with
  | '3' => some (.lineSize ⟨.double, .top⟩)
  | '4' => some (.lineSize ⟨.double, .bottom⟩)
  | '5' => some (.lineSize ⟨.normal, .normal⟩)
  | '6' => some (.lineSize ⟨.double, .normal⟩)
  | '8' => some .screenAlignment
  | _ => none

def lineSequence : List UInt8 → Option Token
  | [] => none
  | b :: _ =>
    match lineCommand? b with
    | some c => some (.command 3 c)
    | none => some (.warning 3 (unhandledEscape [escapeCode, 0x23, b]))

/-- Sequences with any other intermediates, which are read up to a final byte and not
understood. -/
def intermediateSequence (bytes : List UInt8) : Option Token :=
  let intermediates := bytes.takeWhile isIntermediate
  match bytes.dropWhile isIntermediate with
  | [] => none
  | final :: _ =>
    let head := escapeCode :: intermediates
    if 0x30 ≤ final ∧ final ≤ 0x7e then
      some (.warning (head.length + 1) (unhandledEscape (head ++ [final])))
    else some (.warning head.length ("Malformed escape sequence: " ++ escapeBytes head))

/-- An escape sequence that is neither a control sequence nor a system command. An escape byte
before a control or high byte is dropped alone. -/
def escape : Recognizer
  | 0x1b :: b :: bs =>
    match Char.ofNat b.toNat with
    | '[' => none
    | ']' => none
    | '\x5c' => some (.silent 2)
    | 'N' => singleShift .g2 bs
    | 'O' => singleShift .g3 bs
    | '(' => designation .g0 b bs
    | ')' => designation .g1 b bs
    | '#' => lineSequence bs
    | _ =>
      match escapeCommand? b with
      | some c => some (.command 2 c)
      | none =>
        if isIntermediate b then intermediateSequence (b :: bs)
        else if isPrintable b then some (.warning 2 (unhandledEscape [escapeCode, b]))
        else some (.warning 1 ("stray ESC before " ++ namedByte b))
  | _ => none

def isBodyByte (b : UInt8) : Bool := b != bellCode && b != escapeCode

/-- How many bytes end the body of a system command: one for a bell, two for `ESC \`, none for
the escape byte of a sequence that follows directly. Undecided while the byte after an escape is
missing. -/
def terminator? : List UInt8 → Option Nat
  | [] => none
  | 0x1b :: next => next.head?.map fun b => if b = 0x5c then 2 else 0
  | _ :: _ => some 1

def systemOutput (body : List UInt8) : Output :=
  let isCode (b : UInt8) : Bool := b != Params.semicolon
  let code := body.takeWhile isCode
  match body.dropWhile isCode with
  | [] => .warning ("Unhandled OSC: " ++ escapeBytes body)
  | _ :: bytes =>
    let text := String.ofList (Utf8.decodeLossy bytes)
    match code with
    | [0x30] => .command (.bothTitles text)
    | [0x31] => .command (.iconTitle text)
    | [0x32] => .command (.windowTitle text)
    | _ => .warning ("Unhandled OSC " ++ escapeBytes code)

/-- A system command: a body ended by a bell, by `ESC \`, or by the escape byte of whatever
comes next. -/
def systemCommand : Recognizer
  | 0x1b :: 0x5d :: bytes =>
    let body := bytes.takeWhile isBodyByte
    (terminator? (bytes.dropWhile isBodyByte)).map fun ending =>
      ⟨2 + body.length + ending, [systemOutput body]⟩
  | _ => none

end Recognizer

end TermReplay

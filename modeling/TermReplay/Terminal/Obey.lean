import TermReplay.Terminal.Editing
import TermReplay.Text.Escaped
import TermReplay.Text.Visible

/-!
Obeying commands. Each command is one reaction; the outputs of a byte stream are obeyed in order,
and warnings are passed on to the watchers.
-/

namespace TermReplay.Terminal

def setTab (t : Terminal) (on : Bool) : Reaction :=
  { t with tabs := t.tabs.setIfInBounds t.column on }.quietly

def clearAllTabs (t : Terminal) : Reaction :=
  { t with tabs := Array.replicate t.tabs.size false }.quietly

def saveCursor (t : Terminal) : Reaction :=
  { t with saved := t.saved.push t.cursor }.quietly

/-- With nothing saved the cursor stays, and is told all the same. -/
def restoreCursor (t : Terminal) : Reaction :=
  match t.saved.pop? with
  | some (c, saved) => { t with cursor := c, saved }.tellingCursor
  | none => t.tellingCursor

def unsupportedMode : ModeChange → String
  | .columns n => "Width(" ++ toString n ++ ")"
  | .vt52 on => "Vt52(" ++ (if on then "true" else "false") ++ ")"
  | _ => ""

/-- A switch of screens repaints every row. Other changes are stored if they can be. -/
def changeMode (t : Terminal) (change : ModeChange) : Reaction :=
  match change with
  | .screen kind =>
    let t := { t with modes := { t.modes with screen := kind } }
    t.telling (t.wholeRows (rowsUpTo 0 t.height) ++ [.mode change])
  | _ =>
    match t.modes.store? change with
    | some modes => { t with modes }.telling [.mode change]
    | none => t.warning ("can't handle mode change " ++ unsupportedMode change)

def setWindowTitle (t : Terminal) (title : String) : Reaction :=
  { t with windowTitle := title }.telling [.windowTitle title]

def setIconTitle (t : Terminal) (title : String) : Reaction :=
  { t with iconTitle := title }.telling [.iconTitle title]

/-- The bytes of a report. The cursor position is one-based and counts from the origin row. -/
def reportText (t : Terminal) : ReportKind → String
  | .status => "\x1b[0n"
  | .printer => "\x1b[?13n"
  | .cursorPosition =>
    "\x1b[" ++ toString (t.cursor.y - t.originRow + 1) ++ ";" ++ toString (t.column + 1) ++ "R"
  | .deviceAttributes => "\x1b[?6c"
  | .version => "\x1b[>0;10;0c"

def report (t : Terminal) (kind : ReportKind) : Reaction :=
  t.telling [.reply (Text.asciiBytes (t.reportText kind))]

def applyAttribute (t : Terminal) (code : Nat) : Reaction :=
  match t.cursor.applyAttribute? code with
  | some cursor => { t with cursor }.quietly
  | none => t.warning ("ignoring setAttribute(" ++ toString code ++ ")")

def shiftName : ShiftSlot → String
  | .g2 => "G2"
  | .g3 => "G3"

/-- Modes, margins, pen, character sets and saved cursors go back to their defaults. The grids,
the position of the cursor and the screen on display stay. -/
def softReset (t : Terminal) : Reaction :=
  { t with
    modes := { screen := t.modes.screen }
    margins := Margins.full t.height
    cursor := t.cursor.plain
    designations := {}
    saved := t.saved.clear }.quietly

/-- Back to power-on; only the size and the room for saved cursors stay. -/
def reset (t : Terminal) : Reaction :=
  let t := initial t.width t.height t.saved.depth
  (t.telling (t.wholeRows (rowsUpTo 0 t.height))).andThen tellingCursor

def obey (t : Terminal) : Command → Reaction
  | .bell => t.telling [.bell]
  | .backspace => (t.moveTo (t.cursor.x - 1) t.cursor.y).tellingCursor
  | .tab => (t.moveTo t.nextStop t.cursor.y).tellingCursor
  | .lineFeed | .verticalTab | .formFeed => t.lineFeed
  | .carriageReturn => t.returnCarriage
  | .useSlot slot => { t with designations := t.designations.use slot }.quietly
  | .designate slot set =>
    { t with designations := t.designations.designate slot set }.quietly
  | .print text => t.print text
  | .arrow direction count => t.arrow direction count
  | .home => t.goto 0 0
  | .goto row col => t.goto (col - 1) (row - 1)
  | .gotoColumn col => (t.moveTo (min (col - 1) t.lastColumn) t.cursor.y).tellingCursor
  | .gotoRow row => t.goto t.column (row - 1)
  | .index => t.index
  | .reverseIndex => t.reverseIndex
  | .nextLine => t.nextLine
  | .saveCursor => t.saveCursor
  | .restoreCursor => t.restoreCursor
  | .mode change => t.changeMode change
  | .origin origin => { t with modes := { t.modes with origin } }.goto 0 0
  | .singleShift slot char =>
    t.warning ("single shift " ++ shiftName slot ++ " for " ++ Text.quotedChar char ++
      " is not supported")
  | .setTab => t.setTab true
  | .clearTab => t.setTab false
  | .clearAllTabs => t.clearAllTabs
  | .lineSize size => t.setLineSize size
  | .eraseInLine scope => t.eraseInLine scope
  | .eraseInDisplay scope => t.eraseInDisplay scope
  | .deleteChars count => t.deleteChars count
  | .insertChars count => t.insertChars count
  | .eraseChars count => t.eraseChars count
  | .insertLines count => t.insertLines count
  | .deleteLines count => t.deleteLines count
  | .scrollUp count => t.scrollUp count
  | .scrollDown count => t.scrollDown count
  | .report kind => t.report kind
  | .ledsOff => { t with leds := {} }.quietly
  | .led number => { t with leds := t.leds.light number }.quietly
  | .windowTitle title => t.setWindowTitle title
  | .iconTitle title => t.setIconTitle title
  | .bothTitles title => (t.setWindowTitle title).andThen (·.setIconTitle title)
  | .margins top bottom => t.setMargins top bottom
  | .resetMargins => t.setMargins none none
  | .softReset => t.softReset
  | .reset => t.reset
  | .attribute code => t.applyAttribute code
  | .selfTest _ => t.quietly
  | .screenAlignment => t.alignScreen

def follow (output : Output) (t : Terminal) : Reaction :=
  match output with
  | .command c => t.obey c
  | .warning message => t.warning message

def followAll (outputs : List Output) (t : Terminal) : Reaction := each follow outputs t

/-- Takes over a whole state. The last notice is the one that everything was replaced. -/
def replaceWith (_ : Terminal) (next : Terminal) : Reaction :=
  next.tellingCursor.andThen (·.telling [.replaced])

end TermReplay.Terminal

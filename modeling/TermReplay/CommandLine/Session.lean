import TermReplay.CommandLine.Options
import TermReplay.Playback.Headless
import TermReplay.Playback.SettingsFile
import TermReplay.Store.Snapshot

/-!
What a run of the program prints, and how it ends. The contents of the files it asks for are
handed in, so that everything but reading and printing is a function.
-/

namespace TermReplay.CommandLine

inductive RunError
  | settings (path : String) (error : SettingsError)
  | invalid (reason : InvalidSetting)
  | noInput
  | input (path : String) (error : FileError)
  | recording (error : RecordingError)
  | tooSmall (size : TooSmall)
  | corrupt (error : Corrupt)
  | stalled
  deriving DecidableEq, Repr

def RunError.message : RunError → String
  | .settings path error => "config " ++ quoted path ++ ": " ++ error.message
  | .invalid reason => reason.message
  | .noInput => "no input file given"
  | .input path error =>
    "reading " ++ (if path = "-" then "stdin" else quoted path) ++ ": " ++ error.message
  | .recording error => error.message
  | .tooSmall size => size.message
  | .corrupt error => error.message
  | .stalled => "playback does not advance"

structure Outcome where
  exitCode : UInt8
  output : String
  errors : String
  deriving DecidableEq, Repr

def success (output : String) : Outcome := { exitCode := 0, output, errors := "" }

def failure (output message : String) : Outcome :=
  { exitCode := 1, output, errors := "Error: " ++ message ++ "\n" }

def defaultSettingsPath : String := ".config/vtplay/config.json"

/-- The settings of the file. One that was asked for has to be right; in the place of the default
one the defaults may stand. -/
def fileSettings (options : Options) (file : FileContent) : Except RunError Settings :=
  match options.settings with
  | none => .ok (Settings.ofFileOrDefault file)
  | some path => (Settings.ofFile file).mapError (.settings path)

/-- The settings of a run: the options come on top of those of the file, and the whole is
checked. -/
def settingsFor (options : Options) (file : FileContent) : Except RunError Settings := do
  let s ← fileSettings options file
  let terminal := { s.terminal with
    columns := options.columns.getD s.terminal.columns
    rows := options.rows.getD s.terminal.rows }
  let s := { s with terminal }
  s.check.mapError .invalid
  return s

def recordingFor (options : Options) (file : FileContent) : Except RunError Recording :=
  match options.input, file with
  | none, _ => .error .noInput
  | some path, .error e => .error (.input path e)
  | some _, .ok bytes =>
    if options.raw then .ok [⟨.zero, bytes⟩]
    else (Recording.decode bytes).mapError .recording

def spanText (s : Span) : String :=
  toString s.row ++ "[" ++ toString s.first ++ "..=" ++ toString s.last ++ "]"

def frameText (f : Frame) : String :=
  "frame " ++ toString f.tick ++ ": " ++ " ".intercalate (f.spans.map spanText)

def finalText (options : Options) (r : Run) : String :=
  let t := r.playback.player.terminal
  if options.snapshot then t.toSnapshot ++ "\n"
  else
    lines [
      "Screen (" ++ toString t.width ++ "x" ++ toString t.height ++ "), cursor (" ++
        toString t.cursor.x ++ ", " ++ toString t.cursor.y ++ "):",
      "---",
      t.screenText,
      "---"]

def play (options : Options) (s : Settings) (recording : Recording) : Outcome :=
  match s.run recording with
  | .error e => failure "" (RunError.tooSmall e).message
  | .ok (r, ending) =>
    let frames := if options.frames then lines (r.frames.reverse.map frameText) else ""
    match ending with
    | .corrupt e => failure frames (RunError.corrupt e).message
    | .stalled => failure frames RunError.stalled.message
    | .finished =>
      let history :=
        if options.history then r.history.text ++ "--- scrollback end ---\n" else ""
      success (frames ++ history ++ finalText options r)

/-- How a run gets at what is outside of it. -/
structure Surroundings (m : Type → Type) where
  file : String → m FileContent
  /-- The settings file of the user. -/
  defaultSettings : m FileContent
  standardInput : m FileContent

def Surroundings.input {m : Type → Type} [Monad m] (world : Surroundings m)
    (options : Options) : m FileContent :=
  match options.input with
  | none => pure (.error .notFound)
  | some path => if path = "-" then world.standardInput else world.file path

/-- Everything after the options. The input is not touched before the settings are right. -/
def execute {m : Type → Type} [Monad m] (world : Surroundings m) (options : Options) :
    m Outcome := do
  let file ←
    match options.settings with
    | none => world.defaultSettings
    | some path => world.file path
  match settingsFor options file with
  | .error e => pure (failure "" e.message)
  | .ok s =>
    match recordingFor options (← world.input options) with
    | .error e => pure (failure "" e.message)
    | .ok recording => pure (play options s recording)

def run {m : Type → Type} [Monad m] (world : Surroundings m) (arguments : List String) :
    m Outcome :=
  match parse {} arguments with
  | .error e => pure (failure help e.message)
  | .ok options =>
    if options.help then pure (success help)
    else execute world options

end TermReplay.CommandLine

import TermReplay.Playback.FileContent
import TermReplay.Playback.SettingsForm
import TermReplay.Text.Utf8

/-!
Settings files: reading them, with everything that can go wrong, and their text.
-/

namespace TermReplay

inductive SettingsError
  | file (error : FileError)
  | notText
  | json (fault : Json.Fault)
  | invalid (reason : InvalidSetting)
  deriving DecidableEq, Repr

def SettingsError.message : SettingsError → String
  | .file error => "IO error: " ++ error.message
  | .notText => "IO error: stream did not contain valid UTF-8"
  | .json fault => "JSON error: " ++ fault.message
  | .invalid reason => reason.message

namespace Settings

def ofText (text : String) : Except SettingsError Settings :=
  match Stored.ofText text with
  | .error fault => .error (.json fault)
  | .ok (s : Settings) =>
    match s.check with
    | .error reason => .error (.invalid reason)
    | .ok () => .ok s

def ofFile : FileContent → Except SettingsError Settings
  | .error e => .error (.file e)
  | .ok bytes =>
    match Text.Utf8.decode? bytes with
    | none => .error .notText
    | some cs => ofText (String.ofList cs)

/-- The defaults stand in for a file without usable settings. -/
def ofFileOrDefault (content : FileContent) : Settings :=
  match ofFile content with
  | .ok s => s
  | .error _ => {}

def toText (s : Settings) : String := Stored.toText s

end Settings

end TermReplay

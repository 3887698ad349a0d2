import TermReplay.CommandLine.Session

/-!
The program: gives the command line its files, and prints what it says.
-/

namespace TermReplay.CommandLine

/-- The system's number for reading a directory. -/
def isDirectoryCode : UInt32 := 21

def readContent (path : String) : IO FileContent := do
  try
    return .ok (← IO.FS.readBinFile path).toList
  catch
    | .noFileOrDirectory .. => return .error .notFound
    | .permissionDenied .. => return .error .accessDenied
    | .inappropriateType _ code _ =>
      return .error (if code = isDirectoryCode then .isDirectory else .notDirectory)
    | e => return .error (.other (toString e))

def readStandardInput : IO FileContent := do
  return .ok (← (← IO.getStdin).readBinToEnd).toList

def readDefaultSettings : IO FileContent := do
  match ← IO.getEnv "HOME" with
  | none => return .error .notFound
  | some home => readContent (home ++ "/" ++ defaultSettingsPath)

def surroundings : Surroundings IO :=
  { file := readContent
    defaultSettings := readDefaultSettings
    standardInput := readStandardInput }

end TermReplay.CommandLine

def main (arguments : List String) : IO UInt32 := do
  let outcome ← TermReplay.CommandLine.run TermReplay.CommandLine.surroundings arguments
  IO.print outcome.output
  IO.eprint outcome.errors
  return outcome.exitCode.toUInt32

import TermReplay.Number.Power

/-!
The options of the command line, read one by one from the left, and the help that lists them.
-/

namespace TermReplay.CommandLine

structure Options where
  /-- The file to play; a dash is standard input. -/
  input : Option String := none
  /-- The input is one chunk of output and not a recording. -/
  raw : Bool := false
  /-- Print the final state as a snapshot. -/
  snapshot : Bool := false
  frames : Bool := false
  history : Bool := false
  columns : Option Nat := none
  rows : Option Nat := none
  settings : Option String := none
  help : Bool := false
  deriving DecidableEq, Repr

inductive UsageError
  | missingValue (option : String)
  | columns (value : String)
  | rows (value : String)
  | unexpected (argument : String)
  deriving DecidableEq, Repr

def quoted (s : String) : String := "'" ++ s ++ "'"

def UsageError.message : UsageError → String
  | .missingValue option => option ++ " needs a value"
  | .columns value => "bad column count " ++ quoted value
  | .rows value => "bad row count " ++ quoted value
  | .unexpected argument => "unexpected argument " ++ quoted argument

/-- A count: decimal digits, with a plus sign in front or not, of at most a machine word. -/
def count? (s : String) : Option Nat :=
  let digits :=
    match s.toList with
    | '+' :: cs => cs
    | cs => cs
  if digits.isEmpty || !digits.all Char.isDigit then none
  else
    let n := Nat.ofDigitChars 10 digits 0
    if n < Number.twoTo 64 then some n else none

def isInput (argument : String) : Bool :=
  argument == "-" || argument.toList.head? != some '-'

/-- Reads arguments one by one; the first that makes no sense is told. -/
def parse (options : Options) : List String → Except UsageError Options
  | [] => .ok options
  | argument :: rest =>
    if argument = "-c" ∨ argument = "--cols" then
      match rest with
      | [] => .error (.missingValue argument)
      | value :: rest =>
        match count? value with
        | none => .error (.columns value)
        | some n => parse { options with columns := some n } rest
    else if argument = "-r" ∨ argument = "--rows" then
      match rest with
      | [] => .error (.missingValue argument)
      | value :: rest =>
        match count? value with
        | none => .error (.rows value)
        | some n => parse { options with rows := some n } rest
    else if argument = "--config" then
      match rest with
      | [] => .error (.missingValue argument)
      | value :: rest => parse { options with settings := some value } rest
    else if argument = "--raw" then parse { options with raw := true } rest
    else if argument = "-j" ∨ argument = "--json" then
      parse { options with snapshot := true } rest
    else if argument = "--frames" then parse { options with frames := true } rest
    else if argument = "--scrollback" then parse { options with history := true } rest
    else if argument = "-h" ∨ argument = "--help" then parse { options with help := true } rest
    else if options.input.isNone && isInput argument then
      parse { options with input := some argument } rest
    else .error (.unexpected argument)

def lines (ls : List String) : String := String.join (ls.map (· ++ "\n"))

def help : String := lines [
  "vtplay headless replay runner",
  "",
  "Usage: vtplay-headless [OPTIONS] <FILE>",
  "",
  "Options:",
  "  -c, --cols <N>      Terminal width (default from config: 80)",
  "  -r, --rows <N>      Terminal height (default from config: 24)",
  "      --config <FILE> Read configuration from FILE",
  "      --raw           Treat input as raw terminal output, not ttyrec",
  "  -j, --json          Print the final snapshot as JSON",
  "      --frames        Print the rows repainted after each tick",
  "      --scrollback    Print lines that scrolled off the top",
  "  -h, --help          Show this help message",
  "",
  "Use '-' as FILE to read from stdin.",
  "",
  "Examples:",
  "  vtplay-headless session.ttyrec",
  "  printf 'Hello\\x1b[31mWorld' | vtplay-headless --raw -",
  "  vtplay-headless --json -c 132 -r 43 session.ttyrec > snapshot.json"]

end TermReplay.CommandLine

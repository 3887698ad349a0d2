/-!
Contents of files as the library receives them: the bytes, or why there are none.
-/

namespace TermReplay

inductive FileError
  | notFound
  | notDirectory
  | isDirectory
  | accessDenied
  | other (description : String)
  deriving DecidableEq, Repr

def FileError.message : FileError → String
  | .notFound => "No such file or directory (os error 2)"
  | .notDirectory => "Not a directory (os error 20)"
  | .isDirectory => "Is a directory (os error 21)"
  | .accessDenied => "Permission denied (os error 13)"
  | .other description => description

abbrev FileContent := Except FileError (List UInt8)

end TermReplay

/-!
What can be wrong with JSON text. Text is read from left to right, and the first fault counts.
-/

namespace TermReplay.Json

inductive Fault
  /-- The text ends too early. -/
  | truncated
  /-- The text is not JSON, or holds a number beyond binary64. -/
  | malformed
  /-- The text is JSON of another shape. -/
  | mismatched
  deriving DecidableEq, Repr, Inhabited

def Fault.message : Fault → String
  | .truncated => "unexpected end of text"
  | .malformed => "malformed text"
  | .mismatched => "unexpected value"

end TermReplay.Json

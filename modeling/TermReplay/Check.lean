/-!
Checks of a condition, with the reason to give where it does not hold. Of checks in sequence the
first that fails is told.
-/

namespace TermReplay

def require {ε : Type} (condition : Bool) (reason : ε) : Except ε Unit :=
  if condition then .ok () else .error reason

end TermReplay

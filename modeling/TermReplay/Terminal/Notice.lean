import TermReplay.Screen.RowImage
import TermReplay.Terminal.Modes

/-!
What a terminal tells its watchers. Nothing is merged or left out here: watchers that want less
do that themselves.
-/

namespace TermReplay

inductive Notice
  /-- Cells of a row were written, from column `first` to column `last`. -/
  | change (row first last : Nat)
  /-- Where the cursor is now; the column may be one past the last. -/
  | cursor (x y : Nat)
  | bell
  | windowTitle (title : String)
  | iconTitle (title : String)
  | mode (change : ModeChange)
  /-- A row left the scroll region, upwards (`1`) or downwards (`-1`). -/
  | scrolled (line : RowImage) (direction : Int)
  /-- The whole state was replaced. -/
  | replaced
  /-- Bytes for the sender of the input. -/
  | reply (bytes : List UInt8)
  | warning (message : String)
  deriving DecidableEq, Repr

end TermReplay

import TermReplay.Number.Binary64

/-!
Spans of time in whole nanoseconds. There is a longest one, of 64-bit seconds, and what would be
longer is cut to it.
-/

namespace TermReplay

def second : Nat := 1000000000

structure Duration where
  nanoseconds : Nat
  le_longest : nanoseconds ≤ Number.twoTo 64 * second - 1
  deriving DecidableEq, Repr

namespace Duration

theorem eq_of_nanoseconds {a b : Duration} (h : a.nanoseconds = b.nanoseconds) : a = b := by
  cases a
  cases b
  cases h
  rfl

/-- Longer times are cut. -/
def ofNanoseconds (n : Nat) : Duration :=
  ⟨min n (Number.twoTo 64 * second - 1), Nat.min_le_right _ _⟩

def zero : Duration := ⟨0, Nat.zero_le _⟩

def longest : Duration := ⟨Number.twoTo 64 * second - 1, Nat.le_refl _⟩

instance : Inhabited Duration := ⟨zero⟩

instance : LE Duration := ⟨fun a b => a.nanoseconds ≤ b.nanoseconds⟩

instance (a b : Duration) : Decidable (a ≤ b) :=
  inferInstanceAs (Decidable (a.nanoseconds ≤ b.nanoseconds))

def ofSeconds (seconds nanoseconds : Nat) : Duration :=
  ofNanoseconds (seconds * second + nanoseconds)

def seconds (d : Duration) : Nat := d.nanoseconds / second

def subsecond (d : Duration) : Nat := d.nanoseconds % second

def add (a b : Duration) : Duration := ofNanoseconds (a.nanoseconds + b.nanoseconds)

/-- The time from `b` to `a`, or none at all if `b` is later. -/
def since (a b : Duration) : Duration := ofNanoseconds (a.nanoseconds - b.nanoseconds)

def latest (a b : Duration) : Duration := if a ≤ b then b else a

def inSeconds (d : Duration) : Float :=
  d.seconds.toUInt64.toFloat + d.subsecond.toUInt64.toFloat / 1e9

/-- The duration nearest to a time in seconds, of two equally near ones the even one. The time
is not negative; what is beyond all durations becomes the longest. -/
def nearest (seconds : Float) : Duration :=
  if seconds.isFinite then
    let (mantissa, exponent) := Number.magnitude seconds
    ofNanoseconds
      (Number.roundQuotient (mantissa * Number.twoTo exponent.toNat * second)
        (Number.twoTo (-exponent).toNat))
  else longest

def scaled (d : Duration) (speed : Float) : Duration := nearest (d.inSeconds * speed)

end Duration

def isForward (speed : Float) : Bool := speed.isFinite && 0.0 < speed

end TermReplay

/-!
# Runs of code points

Sets of characters are written as tables of runs.

* `CodeRun`: the code points from `first` to `last` in steps of `step`; a step of two is how
  alphabets that alternate capital and small letters are laid out.
* `CodeRun.mem`, `inRuns`, `inRanges`: membership of a code point in a run, a table of runs and a
  table of unbroken ranges.
-/

set_option autoImplicit false

namespace RestForge.Text

/-- The code points `first, first + step, …, last`. -/
structure CodeRun where
  first : Nat
  last : Nat
  step : Nat
  deriving Repr, DecidableEq

def CodeRun.mem (r : CodeRun) (n : Nat) : Bool :=
  r.first ≤ n && n ≤ r.last && (n - r.first) % r.step == 0

def inRuns (table : List CodeRun) (n : Nat) : Bool :=
  table.any fun r => r.mem n

/-- Each pair holds the first and the last code point of a range. -/
def inRanges (table : List (Nat × Nat)) (n : Nat) : Bool :=
  table.any fun r => r.1 ≤ n && n ≤ r.2

end RestForge.Text

/-
# Tables of code points

A property of characters is written down as a list of closed intervals, or as a list of runs
`(first, last, step)` where the letters of a script alternate between two cases. The ASCII classes
are given directly.

Key definitions: `inSpans`, `inRuns`, `isAsciiUpper`, `isAsciiLower`, `isAsciiDigit`.
-/

namespace GoSchema.Unicode

/-- Membership in a list of closed intervals. -/
def inSpans (spans : List (Nat × Nat)) (n : Nat) : Bool :=
  spans.any fun (first, last) => first ≤ n && n ≤ last

/-- Membership in the run `first, first + step, …, last`. -/
def inRun (run : Nat × Nat × Nat) (n : Nat) : Bool :=
  run.1 ≤ n && n ≤ run.2.1 && (n - run.1) % run.2.2 == 0

/-- Membership in a list of runs. -/
def inRuns (runs : List (Nat × Nat × Nat)) (n : Nat) : Bool :=
  runs.any fun run => inRun run n

/-- The letters `A` to `Z`. -/
def isAsciiUpper (c : Char) : Bool := 65 ≤ c.toNat && c.toNat ≤ 90

/-- The letters `a` to `z`. -/
def isAsciiLower (c : Char) : Bool := 97 ≤ c.toNat && c.toNat ≤ 122

/-- The digits `0` to `9`. -/
def isAsciiDigit (c : Char) : Bool := 48 ≤ c.toNat && c.toNat ≤ 57

end GoSchema.Unicode

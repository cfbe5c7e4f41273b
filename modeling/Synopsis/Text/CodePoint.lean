/-!
# Tables over code points

Properties of characters are sorted lists of code point ranges, and maps of
characters are sorted lists of runs. A look-up stops at the first entry that
begins past the code point, so low code points are found after a few steps.
-/

namespace Synopsis.Text

/-- Ranges of code points, ends included, disjoint and in increasing order. -/
abbrev Ranges := List (Nat × Nat)

def Ranges.holds : Ranges → Nat → Bool
  | [], _ => false
  | (first, last) :: rest, n =>
    if n < first then false else if n ≤ last then true else Ranges.holds rest n

/-- The code points `first`, `first + step`, and so on up to `last`, sent to
`image`, `image + step`, and so on. -/
structure Run where
  first : Nat
  last : Nat
  step : Nat
  image : Nat

def Run.imageOf? : List Run → Nat → Option Nat
  | [], _ => none
  | r :: rest, n =>
    if n < r.first then none
    else if n ≤ r.last then
      if (n - r.first) % r.step = 0 then some (r.image + (n - r.first)) else none
    else Run.imageOf? rest n

end Synopsis.Text

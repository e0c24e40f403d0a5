/-!
# Sets and maps of code points given by tables

A property of characters is tabulated by its boundaries: the code points, in
ascending order, at which membership changes. A code point belongs to the set
exactly when an odd number of boundaries lie at or below it. A case mapping is
tabulated by runs of evenly spaced code points that all move by one distance.
Both kinds of table are searched by halving.
-/

namespace GridScript.Text

/-- A set of code points, described by where membership changes. -/
structure CodeSet where
  /-- Ascending code points at which membership flips, starting from outside. -/
  boundaries : Array Nat

/-- The number of boundaries at or below `code` among those from `low` up to
`high`, found with at most `fuel` halvings. -/
def CodeSet.rank (set : CodeSet) (code : Nat) : (fuel low high : Nat) → Nat
  | 0, low, _ => low
  | fuel + 1, low, high =>
    if low < high then
      let middle := (low + high) / 2
      if set.boundaries.getD middle 0 ≤ code then set.rank code fuel (middle + 1) high
      else set.rank code fuel low middle
    else low

/-- A character belongs to the set when an odd number of boundaries is passed. -/
def CodeSet.contains (set : CodeSet) (c : Char) : Bool :=
  set.rank c.toNat set.boundaries.size 0 set.boundaries.size % 2 == 1

/-- Evenly spaced code points that a mapping moves by one common distance. -/
structure CodeRun where
  /-- Least code point of the run. -/
  first : Nat
  /-- Greatest code point of the run. -/
  last : Nat
  /-- Distance between neighbours of the run. -/
  step : Nat
  /-- Image of the least code point. -/
  image : Nat

/-- The image of `code` under the run, when the run holds it. -/
def CodeRun.image? (run : CodeRun) (code : Nat) : Option Nat :=
  if run.first ≤ code ∧ code ≤ run.last ∧ (code - run.first) % run.step = 0 then
    some (run.image + (code - run.first))
  else none

/-- The index of the first run starting after `code`, among those from `low` up
to `high`, found with at most `fuel` halvings. -/
def CodeRun.rank (runs : Array CodeRun) (code : Nat) : (fuel low high : Nat) → Nat
  | 0, low, _ => low
  | fuel + 1, low, high =>
    if low < high then
      let middle := (low + high) / 2
      if (runs[middle]?.map CodeRun.first).getD 0 ≤ code then
        CodeRun.rank runs code fuel (middle + 1) high
      else CodeRun.rank runs code fuel low middle
    else low

/-- The image of a code point under ascending runs. Two runs may interleave, so
the nearest two that start at or below the code point are tried. -/
def CodeRun.lookup? (runs : Array CodeRun) (code : Nat) : Option Nat :=
  let after := CodeRun.rank runs code runs.size 0 runs.size
  match runs[after - 1]?.bind (·.image? code) with
  | some image => some image
  | none => runs[after - 2]?.bind (·.image? code)

end GridScript.Text

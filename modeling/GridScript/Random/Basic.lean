/-!
# Random sources

Where formulas get random numbers from. A source is a state from which the next
number, at least zero and below one, can be drawn.
-/

namespace GridScript

/-- A state from which random numbers can be drawn. -/
class RandomSource (ρ : Type) where
  /-- The next number, at least zero and below one, and the state after it. -/
  draw : ρ → Float × ρ

/-- A source that repeats given numbers, and one half when none are given. -/
structure ReplaySource where
  /-- The numbers to repeat. -/
  numbers : List Float
  /-- How many numbers have been drawn. -/
  drawn : Nat

instance : RandomSource ReplaySource where
  draw source :=
    (source.numbers.getD (source.drawn % source.numbers.length) 0.5,
      { source with drawn := source.drawn + 1 })

end GridScript

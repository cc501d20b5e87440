/-!
# Sets of characters given by ranges of code points

A property of characters is a list of ranges of code points, both ends included.
`Ranges.has` decides it.
-/

namespace SchemaHeaders.Text

/-- Ranges of code points, each with its first and its last member. -/
abbrev Ranges := List (Nat × Nat)

/-- Whether a code point lies in one of the ranges. -/
def Ranges.has (ranges : Ranges) (c : Char) : Bool :=
  ranges.any fun r => r.1 ≤ c.toNat && c.toNat ≤ r.2

end SchemaHeaders.Text

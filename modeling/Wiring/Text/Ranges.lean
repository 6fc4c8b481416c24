/-! Sets of characters given by ranges of code points. -/
namespace Wiring.Text

/-- Ranges of code points, both ends included, in ascending order. -/
abbrev Ranges := List (Nat × Nat)

def Ranges.contains (rs : Ranges) (n : Nat) : Bool :=
  rs.any (fun r => decide (r.1 ≤ n) && decide (n ≤ r.2))

end Wiring.Text

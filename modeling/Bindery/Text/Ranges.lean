/-
  CODE-POINT RANGES: the shape in which a property of characters is held.

  A property beyond ASCII is a list of closed ranges, ascending and apart.  Every table of this
  folder answers below U+0080 without looking into its list, so facts about ASCII names never
  unfold one.
-/

namespace Bindery.Text

/-- Whether `n` lies in one of the closed ranges. -/
def inRanges (ranges : List (Nat × Nat)) (n : Nat) : Bool :=
  ranges.any fun r => r.1 ≤ n && n ≤ r.2

end Bindery.Text

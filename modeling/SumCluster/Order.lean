/-!
Lists in the order of a key. What has the same key keeps its order.
-/

namespace SumCluster

/-- Puts an element before the first one whose key is not below its own. -/
def insertBy {α : Type} (key : α → Nat) (x : α) : List α → List α
  | [] => [x]
  | y :: ys => if key x ≤ key y then x :: y :: ys else y :: insertBy key x ys

/-- Sorts a list by a key. -/
def sortBy {α : Type} (key : α → Nat) (xs : List α) : List α := xs.foldr (insertBy key) []

end SumCluster

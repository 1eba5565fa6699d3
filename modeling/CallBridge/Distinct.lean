/-! # Lists without repetitions

Values that count as the same may still differ. A list without repetitions keeps one of them.
-/
namespace CallBridge

variable {α : Type}

/-- Put a value in front of a list, unless the list begins with the same one. -/
def keepLast (same : α → α → Bool) (x : α) : List α → List α
  | [] => [x]
  | y :: ys => if same x y then y :: ys else x :: y :: ys

/-- The values in order, of those that are the same the last one given. -/
def sortedDistinct (le same : α → α → Bool) (xs : List α) : List α :=
  (xs.mergeSort le).foldr (keepLast same) []

def keepFirst (same : α → α → Bool) (kept : List α) (x : α) : List α :=
  if kept.any (same x) then kept else kept ++ [x]

/-- The values in the order in which they are given, of those that are the same the first one. -/
def firstsDistinct (same : α → α → Bool) (xs : List α) : List α :=
  xs.foldl (keepFirst same) []

end CallBridge

set_option autoImplicit false

namespace BenchReport.Grouped

variable {α κ : Type} [DecidableEq κ]

/-- Puts an item behind those of its key. -/
def put (k : κ) (x : α) : List (κ × List α) → List (κ × List α)
  | [] => [(k, [x])]
  | (k', xs) :: rest => if k' = k then (k', xs ++ [x]) :: rest else (k', xs) :: put k x rest

/-- The groups of a list. -/
def ofList (key : α → κ) (xs : List α) : List (κ × List α) :=
  xs.foldl (fun groups x => put (key x) x groups) []

end BenchReport.Grouped

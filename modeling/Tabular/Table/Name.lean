import Tabular.Address

/-!
# Fresh names

Columns of one table have different names. A name that is taken gets the least suffix `_2`, `_3`,
… that is free. Among one more candidates than there are names one is free, so the search is
bounded.
-/
namespace Tabular

def suffixed (base : String) (n : Nat) : String := base ++ "_" ++ natText n

/-- The name itself if it is free, and otherwise its first free suffixed form. -/
def freshName (base : String) (taken : List String) : String :=
  if base ∈ taken then
    (((List.range (taken.length + 1)).map fun i => suffixed base (i + 2)).find?
      fun name => decide (name ∉ taken)).getD base
  else base

def freshNames (bases : List String) : List String :=
  bases.foldl (fun names base => names ++ [freshName base names]) []

end Tabular

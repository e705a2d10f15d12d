import Tabular.Value.Basic

/-!
# JSON documents

A document is a value of JSON. Whole numbers apart, numbers are doubles. The fields of an object
have an order, and no two of them one name.
-/
namespace Tabular

inductive Document
  | null
  | boolean (b : Bool)
  | whole (n : Int)
  | number (x : Float)
  | text (s : String)
  | list (items : List Document)
  | object (fields : List (String × Document))

namespace Document

/-- Adds a field behind the others, or replaces the value of the one with its name. -/
def setField (fields : List (String × Document)) (field : String × Document) :
    List (String × Document) :=
  if fields.any (·.1 = field.1) then
    fields.map fun old => if old.1 = field.1 then (old.1, field.2) else old
  else fields ++ [field]

/-- The object of fields of which a later one replaces the value of an earlier one. -/
def ofFields (fields : List (String × Document)) : Document := object (fields.foldl setField [])

end Document

end Tabular

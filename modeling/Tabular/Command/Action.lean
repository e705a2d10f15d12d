import Tabular.Store

/-!
# Actions

An action changes the world step by step: the stored files, what is printed, and what the user is told
beside it. Where it fails, everything stays that was done before.
-/
namespace Tabular

structure World where
  store : Store
  output : ByteArray
  notes : String

def World.printed (w : World) (bytes : ByteArray) : World := { w with output := w.output ++ bytes }

def World.noted (w : World) (text : String) : World := { w with notes := w.notes ++ text }

abbrev Action := ExceptT Error (StateM World)

namespace Action

def look : Action Lookup := do return (← get).store.lookup

/-- Writes a file as a whole, or nothing of it. -/
def writeFile (path : String) (bytes : ByteArray) : Action Unit := do
  match (← get).store.write? path bytes with
  | some store => modify ({ · with store })
  | none => throw (.io path)

def print (bytes : ByteArray) : Action Unit := modify (·.printed bytes)

def note (text : String) : Action Unit := modify (·.noted text)

end Action

end Tabular

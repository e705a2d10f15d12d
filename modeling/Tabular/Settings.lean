import Tabular.Format

/-!
# Settings

What a command does where its flags leave a choice: the format of printed tables, the places of
numbers on display, and the dialect of CSV.
-/
namespace Tabular

structure Settings where
  defaultFormat : Option Format
  precision : Option Nat
  csv : Csv.Dialect
  deriving DecidableEq, Repr

namespace Settings

def standard : Settings := ⟨none, none, .standard⟩

/-- The dialect of CSV, of which the delimiter must be a character of ASCII. -/
def dialect (settings : Settings) : Except Error Csv.Dialect :=
  if settings.csv.delimiter.toNat < 128 then .ok settings.csv
  else .error (.argument (.delimiterNotAscii settings.csv.delimiter))

/-- Reads the text of a settings file, given a reader of YAML that fills in what is left out. -/
def parse (readYaml : String → Except String Settings) (s : String) : Except Error Settings := do
  if Text.trim s = "" then return standard
  let settings ← (readYaml s).mapError Error.yaml
  let _ ← settings.dialect
  return settings

end Settings

end Tabular

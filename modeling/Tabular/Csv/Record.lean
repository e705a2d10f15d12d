import Tabular.Text.Encoding

/-!
# CSV records

A document is a sequence of records, and a record a sequence of fields. A field in quotes may hold
delimiters and line breaks, and a quote inside is written twice. Reading accepts every text:
blank lines are skipped, characters behind a closing quote belong to the field, and a quote that
is never closed runs to the end.

Reading works on characters of which some may be damaged bytes, and what it returns says which field
each of them is in.
-/
namespace Tabular.Csv

/-- How records and fields are told apart, and whether the first record names the columns. -/
structure Dialect where
  delimiter : Char
  hasHeader : Bool
  deriving DecidableEq, Repr

/-- Commas between fields, and names in the first record. -/
def Dialect.standard : Dialect := ⟨',', true⟩

/-- A character as read; `none` marks the one behind it as a damaged byte. -/
abbrev Symbol := Option Char

def isBreak (c : Symbol) : Bool := c = some '\n' || c = some '\r'

inductive Ending
  | delimiter
  | line
  | input
  deriving DecidableEq, Repr

/-- A field cut off the front of a text, and the text behind what ends it. -/
structure Cut where
  field : List Symbol
  ending : Ending
  rest : List Symbol
  deriving DecidableEq, Repr

/-- The cut with one more character at the front of its field. -/
def Cut.push (c : Symbol) (cut : Cut) : Cut := { cut with field := c :: cut.field }

def readBare (delimiter : Char) : List Symbol → Cut
  | [] => ⟨[], .input, []⟩
  | c :: cs =>
    if c = some delimiter then ⟨[], .delimiter, cs⟩
    else if isBreak c then ⟨[], .line, cs⟩
    else (readBare delimiter cs).push c

def readQuoted (delimiter : Char) : List Symbol → Cut
  | [] => ⟨[], .input, []⟩
  | some '"' :: some '"' :: cs => (readQuoted delimiter cs).push (some '"')
  | some '"' :: cs => readBare delimiter cs
  | c :: cs => (readQuoted delimiter cs).push c

/-- Reads a field. Quotes count only at its very beginning. -/
def readField (delimiter : Char) : List Symbol → Cut
  | some '"' :: cs => readQuoted delimiter cs
  | cs => readBare delimiter cs

theorem length_rest_readBare (d : Char) (cs : List Symbol) :
    (readBare d cs).rest.length ≤ cs.length - 1 := by
  induction cs with
  | nil => simp [readBare]
  | cons c cs ih =>
    simp only [readBare]
    split
    · simp
    · split
      · simp
      · simp only [Cut.push, List.length_cons]
        omega

theorem length_rest_readQuoted (d : Char) (cs : List Symbol) :
    (readQuoted d cs).rest.length ≤ cs.length - 1 := by
  fun_induction readQuoted d cs with
  | case1 => simp
  | case2 cs ih =>
    simp only [Cut.push, List.length_cons]
    omega
  | case3 cs h =>
    have := length_rest_readBare d cs
    simp only [List.length_cons]
    omega
  | case4 c cs h₁ h₂ ih =>
    simp only [Cut.push, List.length_cons]
    omega

theorem length_rest_readField (d : Char) (cs : List Symbol) :
    (readField d cs).rest.length ≤ cs.length - 1 := by
  simp only [readField]
  split
  · rename_i cs
    have := length_rest_readQuoted d cs
    simp only [List.length_cons]
    omega
  · exact length_rest_readBare d cs

theorem readField_nil (d : Char) : readField d [] = ⟨[], .input, []⟩ := rfl

/-- Reads a record, of at least one field. -/
def readRecord (delimiter : Char) (cs : List Symbol) : List (List Symbol) × List Symbol :=
  let cut := readField delimiter cs
  if _h : cut.ending = .delimiter then
    let more := readRecord delimiter cut.rest
    (cut.field :: more.1, more.2)
  else ([cut.field], cut.rest)
termination_by cs.length
decreasing_by
  have hlen := length_rest_readField delimiter cs
  cases cs with
  | nil => simp [cut, readField_nil] at _h
  | cons c cs =>
    simp only [List.length_cons] at hlen ⊢
    omega

theorem length_rest_readRecord (d : Char) (cs : List Symbol) :
    (readRecord d cs).2.length ≤ cs.length - 1 := by
  fun_induction readRecord d cs with
  | case1 cs cut h more ih =>
    have := length_rest_readField d cs
    simp only [more, cut] at ih ⊢
    omega
  | case2 cs cut h => exact length_rest_readField d cs

/-- Reads all records; line breaks where a record could begin are skipped. -/
def readRecords (delimiter : Char) (cs : List Symbol) : List (List (List Symbol)) :=
  match _h : cs.dropWhile isBreak with
  | [] => []
  | c :: rest =>
    let record := readRecord delimiter (c :: rest)
    record.1 :: readRecords delimiter record.2
termination_by cs.length
decreasing_by
  have hrest := length_rest_readRecord delimiter (c :: rest)
  have hdrop := (List.dropWhile_sublist (l := cs) isBreak).length_le
  rw [_h] at hdrop
  simp only [List.length_cons] at hrest hdrop
  omega

/-- The text without the mark that may stand at the beginning of a document. -/
def dropMark : List Symbol → List Symbol
  | some '\uFEFF' :: cs => cs
  | cs => cs

/-- Whether a field holds a character that only quotes keep from ending it. -/
def mustQuote (delimiter : Char) (field : List Char) : Bool :=
  field.any fun c => c = delimiter || c = '"' || c = '\n' || c = '\r'

/-- The field in quotes, with quotes inside written twice. -/
def quote (field : List Char) : List Char :=
  '"' :: field.flatMap (fun c => if c = '"' then ['"', '"'] else [c]) ++ ['"']

/-- The written form of a field, in quotes only where they are needed. -/
def writeField (delimiter : Char) (field : List Char) : List Char :=
  if mustQuote delimiter field then quote field else field

/-- The written form of a record. A lone empty field is put in quotes, since an empty line would be
skipped. -/
def writeRecord (delimiter : Char) : List (List Char) → List Char
  | [[]] => ['"', '"', '\n']
  | fields => [delimiter].intercalate (fields.map (writeField delimiter)) ++ ['\n']

end Tabular.Csv

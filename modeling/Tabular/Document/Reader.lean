import Tabular.Document.Number

/-!
# Reading documents

A document is one value with blanks around it. Lists and objects may be nested to a depth of 127.
-/
namespace Tabular.Document

/-- A function that reads something from the front of a text and returns the rest. -/
abbrev Reader (α : Type) := List Char → Option (α × List Char)

/-- Whether a character may stand between the parts of a document. -/
def isSpace (c : Char) : Bool := c = ' ' || c = '\n' || c = '\t' || c = '\r'

def skipSpace (cs : List Char) : List Char := cs.dropWhile isSpace

def hexDigit? (c : Char) : Option Nat :=
  if c.isDigit then some (c.toNat - '0'.toNat)
  else if 'a' ≤ c ∧ c ≤ 'f' then some (c.toNat - 'a'.toNat + 10)
  else if 'A' ≤ c ∧ c ≤ 'F' then some (c.toNat - 'A'.toNat + 10)
  else none

def readUnit? : List Char → Option (Nat × List Char)
  | a :: b :: c :: d :: rest => do
    let a ← hexDigit? a
    let b ← hexDigit? b
    let c ← hexDigit? c
    let d ← hexDigit? d
    some (((a * 16 + b) * 16 + c) * 16 + d, rest)
  | _ => none

/-- Reads the second half of a character that is written as a pair. -/
def readSecond? (first : Nat) : List Char → Option (Char × List Char)
  | '\\' :: 'u' :: cs => do
    let (second, rest) ← readUnit? cs
    if 0xDC00 ≤ second ∧ second ≤ 0xDFFF then
      some (Char.ofNat (0x10000 + (first - 0xD800) * 0x400 + (second - 0xDC00)), rest)
    else none
  | _ => none

/-- Reads a character written by its code behind a backslash and a `u`. Characters beyond the first
plane are written as pairs of halves; a lone half is refused. -/
def readCode? (cs : List Char) : Option (Char × List Char) := do
  let (first, rest) ← readUnit? cs
  if 0xDC00 ≤ first ∧ first ≤ 0xDFFF then none
  else if 0xD800 ≤ first ∧ first ≤ 0xDBFF then readSecond? first rest
  else some (Char.ofNat first, rest)

def readEscape? : List Char → Option (Char × List Char)
  | '"' :: cs => some ('"', cs)
  | '\\' :: cs => some ('\\', cs)
  | '/' :: cs => some ('/', cs)
  | 'b' :: cs => some ('\x08', cs)
  | 'f' :: cs => some ('\x0c', cs)
  | 'n' :: cs => some ('\n', cs)
  | 'r' :: cs => some ('\r', cs)
  | 't' :: cs => some ('\t', cs)
  | 'u' :: cs => readCode? cs
  | _ => none

theorem length_lt_of_readUnit? {cs rest : List Char} {n : Nat}
    (h : readUnit? cs = some (n, rest)) : rest.length < cs.length := by
  unfold readUnit? at h
  split at h
  · simp only [Option.bind_eq_bind, Option.bind_eq_some_iff] at h
    obtain ⟨_, _, _, _, _, _, _, _, h⟩ := h
    simp only [Option.some.injEq, Prod.mk.injEq] at h
    simp only [← h.2, List.length_cons]
    omega
  · simp at h

theorem length_lt_of_readCode? {cs rest : List Char} {c : Char}
    (h : readCode? cs = some (c, rest)) : rest.length < cs.length := by
  simp only [readCode?, Option.bind_eq_bind, Option.bind_eq_some_iff, Prod.exists] at h
  obtain ⟨n, r, hunit, h⟩ := h
  have hlt := length_lt_of_readUnit? hunit
  split at h
  · simp at h
  · split at h
    · unfold readSecond? at h
      split at h
      · simp only [Option.bind_eq_bind, Option.bind_eq_some_iff, Prod.exists] at h
        obtain ⟨m, r', hunit', h⟩ := h
        have hlt' := length_lt_of_readUnit? hunit'
        split at h
        · simp only [Option.some.injEq, Prod.mk.injEq] at h
          simp only [List.length_cons] at hlt
          rw [← h.2]
          omega
        · simp at h
      · simp at h
    · simp only [Option.some.injEq, Prod.mk.injEq] at h
      rw [← h.2]
      exact hlt

theorem length_lt_of_readEscape? {cs rest : List Char} {c : Char}
    (h : readEscape? cs = some (c, rest)) : rest.length < cs.length := by
  unfold readEscape? at h
  split at h
  case h_9 =>
    have := length_lt_of_readCode? h
    simp only [List.length_cons]
    omega
  case h_10 => simp at h
  all_goals
    simp only [Option.some.injEq, Prod.mk.injEq] at h
    simp [← h.2]

/-- Reads the rest of a text up to its closing quote. Control characters must be escaped. -/
def readText : Reader (List Char)
  | [] => none
  | c :: cs =>
    if c = '"' then some ([], cs)
    else if c = '\\' then
      match _h : readEscape? cs with
      | none => none
      | some (escaped, rest) => (readText rest).map fun (s, rest) => (escaped :: s, rest)
    else if c.toNat < 0x20 then none
    else (readText cs).map fun (s, rest) => (c :: s, rest)
termination_by cs => cs.length
decreasing_by
  · have := length_lt_of_readEscape? _h
    simp only [List.length_cons]
    omega
  · simp

/-- Reads items between commas, at least one, up to a closing character. An item must not be empty
text. -/
def readItems {α : Type} (closing : Char) (read : Reader α) (cs : List Char) :
    Option (List α × List Char) :=
  match read cs with
  | none => none
  | some (item, rest) =>
    match _h : skipSpace rest with
    | [] => none
    | c :: more =>
      if c = closing then some ([item], more)
      else if c = ',' ∧ more.length < cs.length then
        (readItems closing read more).map fun (items, rest) => (item :: items, rest)
      else none
termination_by cs.length

def readList {α : Type} (closing : Char) (read : Reader α) (cs : List Char) :
    Option (List α × List Char) :=
  match skipSpace cs with
  | [] => none
  | c :: rest => if c = closing then some ([], rest) else readItems closing read (c :: rest)

/-- Reads a name, a colon and a value. -/
def readField (read : Reader Document) : Reader (String × Document) := fun cs =>
  match skipSpace cs with
  | '"' :: cs => do
    let (name, rest) ← readText cs
    match skipSpace rest with
    | ':' :: rest =>
      let (value, rest) ← read rest
      some ((String.ofList name, value), rest)
    | _ => none
  | _ => none

/-- Reads a value, given how to read the values inside it if there may be any. -/
def readValueWith (inner? : Option (Reader Document)) : Reader Document := fun cs =>
  match skipSpace cs with
  | '"' :: cs => (readText cs).map fun (s, rest) => (.text (String.ofList s), rest)
  | '[' :: cs => do
    let (items, rest) ← readList ']' (← inner?) cs
    some (.list items, rest)
  | '\x7b' :: cs => do
    let (fields, rest) ← readList '\x7d' (readField (← inner?)) cs
    some (ofFields fields, rest)
  | 't' :: 'r' :: 'u' :: 'e' :: rest => some (.boolean true, rest)
  | 'f' :: 'a' :: 'l' :: 's' :: 'e' :: rest => some (.boolean false, rest)
  | 'n' :: 'u' :: 'l' :: 'l' :: rest => some (.null, rest)
  | cs => readNumber? cs

/-- Reads a value in which lists and objects are nested at most `depth` deep. -/
def readValue : (depth : Nat) → Reader Document
  | 0 => readValueWith none
  | depth + 1 => readValueWith (some (readValue depth))

def maxDepth : Nat := 127

def parse? (cs : List Char) : Option Document :=
  match readValue maxDepth cs with
  | some (d, rest) => if skipSpace rest = [] then some d else none
  | none => none

end Tabular.Document

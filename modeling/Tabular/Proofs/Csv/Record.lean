import Tabular.Csv.Record

/-!
# Reading written records

A field is written so that reading it stops exactly where it ends, whatever characters it holds,
and a record so that no line of it is blank. Records that have fields are therefore read as they
were before they were written.
-/
namespace Tabular.Csv

/-- The character is told apart from quotes and line breaks. -/
structure Separates (delimiter : Char) : Prop where
  quote : delimiter ≠ '"'
  lineFeed : delimiter ≠ '\n'
  carriageReturn : delimiter ≠ '\r'

def Cut.prepend (field : List Char) (cut : Cut) : Cut :=
  { cut with field := field.map some ++ cut.field }

variable {d : Char} {field : List Char} {tail : List Symbol}

theorem readBare_delimiter (d : Char) (rest : List Symbol) :
    readBare d (some d :: rest) = ⟨[], .delimiter, rest⟩ := by
  rw [readBare, if_pos rfl]

theorem readBare_line (hd : Separates d) (rest : List Symbol) :
    readBare d (some '\n' :: rest) = ⟨[], .line, rest⟩ := by
  rw [readBare, if_neg (by simpa using hd.lineFeed.symm), if_pos (by decide)]

theorem readBare_append (h : mustQuote d field = false) (tail : List Symbol) :
    readBare d (field.map some ++ tail) = (readBare d tail).prepend field := by
  induction field with
  | nil => rfl
  | cons c field ih =>
    simp only [mustQuote, List.any_cons, Bool.or_eq_false_iff, decide_eq_false_iff_not] at h ih
    obtain ⟨⟨⟨⟨hdelimiter, -⟩, hline⟩, hreturn⟩, hfield⟩ := h
    rw [List.map_cons, List.cons_append, readBare, if_neg (by simpa using hdelimiter),
      if_neg (by simp [isBreak, hline, hreturn]), ih hfield]
    rfl

theorem readQuoted_quote (h : tail.head? ≠ some (some '"')) :
    readQuoted d (some '"' :: tail) = readBare d tail := by
  rw [readQuoted]
  rintro rest rfl
  exact h rfl

theorem readQuoted_cons {c : Char} (h : c ≠ '"') :
    readQuoted d (some c :: tail) = (readQuoted d tail).push (some c) := by
  have hc : some c ≠ some '"' := by simpa using h
  rw [readQuoted]
  · exact fun _ heq => absurd heq hc
  · exact hc

theorem readQuoted_escaped (h : tail.head? ≠ some (some '"')) :
    readQuoted d ((field.flatMap fun c => if c = '"' then ['"', '"'] else [c]).map some ++
      some '"' :: tail) = (readBare d tail).prepend field := by
  induction field with
  | nil => exact readQuoted_quote h
  | cons c field ih =>
    rw [List.flatMap_cons, List.map_append, List.append_assoc]
    split
    next hc =>
      -- the two quotes are read as one, so the text goes on behind them
      simp only [List.map_cons, List.map_nil, List.cons_append, List.nil_append]
      rw [readQuoted, ih, hc]
      rfl
    next hc =>
      simp only [List.map_cons, List.map_nil, List.cons_append, List.nil_append]
      rw [readQuoted_cons hc, ih]
      rfl

/-- A written field is read up to where it ends, and what ends it is read as if nothing stood in
front of it. -/
theorem readField_writeField (d : Char) (field : List Char) (tail : List Symbol)
    (h : tail.head? ≠ some (some '"')) :
    readField d ((writeField d field).map some ++ tail) = (readBare d tail).prepend field := by
  unfold writeField
  split
  next =>
    simp only [quote, List.map_append, List.map_cons, List.map_nil, List.cons_append,
      List.append_assoc, List.nil_append]
    exact readQuoted_escaped h
  next hbare =>
    have hbare : mustQuote d field = false := by simpa using hbare
    rw [readField, readBare_append hbare]
    rintro rest hrest
    cases field with
    | nil => exact h (by simp_all)
    | cons c field => simp_all [mustQuote]

theorem readRecord_more {cs rest : List Symbol} {field : List Symbol}
    (h : readField d cs = ⟨field, .delimiter, rest⟩) :
    readRecord d cs = (field :: (readRecord d rest).1, (readRecord d rest).2) := by
  rw [readRecord, dif_pos (by rw [h])]
  simp only [h]

theorem readRecord_last {cs rest : List Symbol} {field : List Symbol}
    (h : readField d cs = ⟨field, .line, rest⟩) : readRecord d cs = ([field], rest) := by
  rw [readRecord, dif_neg (by simp [h])]
  simp only [h]

theorem readRecord_intercalate (hd : Separates d) {fields : List (List Char)} (h : fields ≠ [])
    (rest : List Symbol) :
    readRecord d (([d].intercalate (fields.map (writeField d))).map some ++ some '\n' :: rest) =
      (fields.map (List.map some), rest) := by
  induction fields with
  | nil => exact absurd rfl h
  | cons field fields ih =>
    cases fields with
    | nil =>
      have hlast := readField_writeField d field (some '\n' :: rest) (by simp)
      rw [readBare_line hd, Cut.prepend, List.append_nil] at hlast
      rw [List.map_singleton, List.intercalate_singleton, readRecord_last hlast]
      rfl
    | cons next fields =>
      let tail := ([d].intercalate ((next :: fields).map (writeField d))).map some ++
        some '\n' :: rest
      have hmore := readField_writeField d field (some d :: tail) (by simpa using hd.quote)
      rw [readBare_delimiter, Cut.prepend, List.append_nil] at hmore
      have hsplit : ([d].intercalate ((field :: next :: fields).map (writeField d))).map some ++
          some '\n' :: rest = (writeField d field).map some ++ some d :: tail := by
        simp [tail]
      rw [hsplit, readRecord_more hmore, ih nofun]
      rfl

/-- A written record is read up to its end, and its fields are what was written. -/
theorem readRecord_writeRecord (hd : Separates d) {fields : List (List Char)} (h : fields ≠ [])
    (rest : List Symbol) :
    readRecord d ((writeRecord d fields).map some ++ rest) =
      (fields.map (List.map some), rest) := by
  unfold writeRecord
  split
  next =>
    have hempty : readField d (some '"' :: some '"' :: some '\n' :: rest) = ⟨[], .line, rest⟩ := by
      rw [readField, readQuoted_quote (by simp), readBare_line hd]
    exact readRecord_last hempty
  next =>
    rw [List.map_append, List.append_assoc]
    exact readRecord_intercalate hd h rest

theorem writeField_eq_cons (d : Char) (h : field ≠ []) :
    ∃ c rest, writeField d field = c :: rest ∧ isBreak (some c) = false ∧
      (c = '"' ∨ field.head? = some c) := by
  unfold writeField
  split
  next => exact ⟨'"', _, rfl, by decide, .inl rfl⟩
  next hbare =>
    obtain ⟨c, rest, rfl⟩ := List.exists_cons_of_ne_nil h
    refine ⟨c, rest, rfl, ?_, .inr rfl⟩
    simp only [mustQuote, List.any_cons, Bool.or_eq_true, decide_eq_true_eq, not_or] at hbare
    simp [isBreak, hbare.1.1.2, hbare.1.2]

/-- A written record does not begin with a line break. It begins with a quote or with its first
field, if that is not empty. -/
theorem writeRecord_eq_cons (hd : Separates d) (field : List Char) (fields : List (List Char)) :
    ∃ c rest, writeRecord d (field :: fields) = c :: rest ∧ isBreak (some c) = false ∧
      (field ≠ [] → c = '"' ∨ field.head? = some c) := by
  unfold writeRecord
  split
  next => exact ⟨'"', _, rfl, by decide, fun _ => .inl rfl⟩
  next hlone =>
    cases fields with
    | nil =>
      -- a lone empty field was written in quotes above
      have hfield : field ≠ [] := fun hnil => hlone (by rw [hnil])
      obtain ⟨c, rest, heq, hbreak, hhead⟩ := writeField_eq_cons d hfield
      exact ⟨c, rest ++ ['\n'], by simp [heq], hbreak, fun _ => hhead⟩
    | cons next fields =>
      let tail := [d].intercalate ((next :: fields).map (writeField d)) ++ ['\n']
      have hsplit : [d].intercalate ((field :: next :: fields).map (writeField d)) ++ ['\n'] =
          writeField d field ++ d :: tail := by
        simp [tail]
      by_cases hfield : field = []
      · refine ⟨d, tail, by rw [hsplit, hfield]; rfl, ?_, absurd hfield⟩
        simp [isBreak, hd.lineFeed, hd.carriageReturn]
      · obtain ⟨c, rest, heq, hbreak, hhead⟩ := writeField_eq_cons d hfield
        exact ⟨c, rest ++ d :: tail, by rw [hsplit, heq, List.cons_append], hbreak, fun _ => hhead⟩

theorem readRecords_cons {cs : List Symbol} (hne : cs ≠ []) (h : cs.dropWhile isBreak = cs) :
    readRecords d cs = (readRecord d cs).1 :: readRecords d (readRecord d cs).2 := by
  rw [readRecords]
  split
  next heq => exact absurd (h.symm.trans heq) hne
  next c rest heq => rw [← heq, h]

/-- Written records are read one after another. -/
theorem readRecords_writeRecord (hd : Separates d) {records : List (List (List Char))}
    (h : ∀ fields ∈ records, fields ≠ []) :
    readRecords d ((records.flatMap (writeRecord d)).map some) =
      records.map (List.map (List.map some)) := by
  induction records with
  | nil => 
    rw [readRecords]
    rfl
  | cons fields records ih =>
    obtain ⟨hfields, hrecords⟩ := List.forall_mem_cons.mp h
    rw [List.flatMap_cons, List.map_append, readRecords_cons, readRecord_writeRecord hd hfields,
      ih hrecords, List.map_cons]
    all_goals
      obtain ⟨field, fields, rfl⟩ := List.exists_cons_of_ne_nil hfields
      obtain ⟨c, rest, heq, hbreak, -⟩ := writeRecord_eq_cons hd field fields
      simp [heq, hbreak]

end Tabular.Csv

import Tabular.Proofs.Document.Number
import Tabular.Proofs.Document.Text

/-!
# Reading written documents

A reader reads a written part wherever it stands: behind blanks, and in front of anything that could
not belong to a number. Lists and objects are read from their blocks when their items are.
-/
namespace Tabular.Document

theorem skipSpace_append {blanks : List Char} (h : ∀ c ∈ blanks, isSpace c = true) (cs : List Char) :
    skipSpace (blanks ++ cs) = skipSpace cs := List.dropWhile_append_of_pos h

theorem skipSpace_cons {c : Char} (h : isSpace c = false) (cs : List Char) :
    skipSpace (c :: cs) = c :: cs := List.dropWhile_cons_of_neg (by simp [h])

theorem isSpace_of_mem_newLine {level : Nat} {c : Char} (h : c ∈ newLine level) :
    isSpace c = true := by
  obtain rfl | h := List.mem_cons.mp h
  · rfl
  · rw [List.eq_of_mem_replicate h]
    rfl

theorem endsNumber_newLine (level : Nat) (cs : List Char) : EndsNumber (newLine level ++ cs) := by
  rintro c ⟨⟩
  decide

theorem endsNumber_comma (cs : List Char) : EndsNumber (',' :: cs) := by
  rintro c ⟨⟩
  decide

/-- The first character of a part, which is neither a blank nor the end of a block. -/
def Opens (text : List Char) : Prop :=
  ∃ c more, text = c :: more ∧ isSpace c = false ∧ c ≠ ']' ∧ c ≠ '\x7d'

/-- The written form of a value, wherever it stands. -/
structure IsRead {α : Type} (read : Reader α) (text : List Char) (value : α) : Prop where
  opens : Opens text
  read_append : ∀ {blanks rest : List Char}, (∀ c ∈ blanks, isSpace c = true) → EndsNumber rest →
    read (blanks ++ (text ++ rest)) = some (value, rest)

variable {α : Type} {read : Reader α}

/-- The items behind the first one, each with a comma and a new line in front. -/
def furtherItems (level : Nat) (texts : List (List Char)) : List Char :=
  texts.flatMap fun text => ',' :: (newLine level ++ text)

@[simp] theorem furtherItems_nil (level : Nat) : furtherItems level [] = [] := rfl

@[simp] theorem furtherItems_cons (level : Nat) (text : List Char) (texts : List (List Char)) :
    furtherItems level (text :: texts) =
      ',' :: (newLine level ++ (text ++ furtherItems level texts)) := by
  simp [furtherItems]

theorem intercalate_newLine (level : Nat) (text : List Char) (texts : List (List Char)) :
    [','].intercalate ((text :: texts).map (newLine level ++ ·)) =
      newLine level ++ (text ++ furtherItems level texts) := by
  induction texts generalizing text with
  | nil => simp [furtherItems, List.intercalate]
  | cons next texts ih =>
    have hnext := ih next
    rw [List.map_cons, List.map_cons] at *
    rw [List.intercalate_cons_cons, hnext]
    simp [furtherItems]

theorem readItems_last {closing : Char} {cs rest more : List Char} {value : α}
    (hread : read cs = some (value, rest)) (hrest : skipSpace rest = closing :: more) :
    readItems closing read cs = some ([value], more) := by
  rw [readItems, hread]
  dsimp only
  split
  next hnil =>
    rw [hrest] at hnil
    cases hnil
  next heq =>
    rw [hrest] at heq
    cases heq
    exact if_pos rfl

theorem readItems_comma {closing : Char} (hclosing : ',' ≠ closing) {cs rest more : List Char}
    {value : α} (hread : read cs = some (value, rest)) (hrest : skipSpace rest = ',' :: more)
    (hlength : more.length < cs.length) : readItems closing read cs =
      (readItems closing read more).map fun (items, rest) => (value :: items, rest) := by
  rw [readItems, hread]
  dsimp only
  split
  next hnil =>
    rw [hrest] at hnil
    cases hnil
  next heq =>
    rw [hrest] at heq
    cases heq
    rw [if_neg hclosing]
    exact if_pos ⟨rfl, hlength⟩

theorem readItems_further {closing : Char} (hclosing : closing = ']' ∨ closing = '\x7d')
    {texts : List (List Char)} {values : List α} (hitems : List.Forall₂ (IsRead read) texts values)
    {text : List Char} {value : α} (hitem : IsRead read text value) {blanks : List Char}
    (hblanks : ∀ c ∈ blanks, isSpace c = true) (level : Nat) (rest : List Char) :
    readItems closing read (blanks ++ (text ++ (furtherItems (level + 1) texts ++
      (newLine level ++ closing :: rest)))) = some (value :: values, rest) := by
  induction hitems generalizing text value blanks with
  | nil =>
    refine readItems_last (hitem.read_append hblanks (endsNumber_newLine level _)) ?_
    rw [furtherItems_nil, List.nil_append, skipSpace_append fun c => isSpace_of_mem_newLine,
      skipSpace_cons]
    obtain rfl | rfl := hclosing <;> rfl
  | @cons next nextValue texts values hnext _ ih =>
    have hcomma : ',' ≠ closing := by
      obtain rfl | rfl := hclosing <;> decide
    have hindent : ∀ c ∈ newLine (level + 1), isSpace c = true := fun c => isSpace_of_mem_newLine
    have htail := ih hnext hindent
    rw [furtherItems_cons, List.cons_append, List.append_assoc, List.append_assoc]
    rw [readItems_comma hcomma (hitem.read_append hblanks (endsNumber_comma _)) (skipSpace_cons rfl _),
      htail]
    · rfl
    · simp only [List.length_append, List.length_cons]
      omega

theorem Opens.ne_closing {text : List Char} (h : Opens text) {closing : Char}
    (hclosing : closing = ']' ∨ closing = '\x7d') :
    ∃ c more, text = c :: more ∧ isSpace c = false ∧ c ≠ closing := by
  obtain ⟨c, more, rfl, hspace, hlist, hobject⟩ := h
  obtain rfl | rfl := hclosing
  · exact ⟨c, more, rfl, hspace, hlist⟩
  · exact ⟨c, more, rfl, hspace, hobject⟩

/-- The items of a written block are read behind its opening character. -/
theorem readList_writeBlock (opening : Char) {closing : Char} (hclosing : closing = ']' ∨ closing = '\x7d')
    {texts : List (List Char)} {values : List α} (hitems : List.Forall₂ (IsRead read) texts values)
    (level : Nat) (rest : List Char) :
    ∃ body, writeBlock opening closing level texts ++ rest = opening :: body ∧
      readList closing read body = some (values, rest) := by
  cases hitems with
  | nil =>
    refine ⟨closing :: rest, rfl, ?_⟩
    rw [readList, skipSpace_cons (by obtain rfl | rfl := hclosing <;> rfl)]
    exact if_pos rfl
  | @cons text value texts values hitem hitems =>
    refine ⟨newLine (level + 1) ++ (text ++ (furtherItems (level + 1) texts ++
      (newLine level ++ closing :: rest))), ?_, ?_⟩
    · rw [writeBlock, intercalate_newLine]
      · simp
      · exact nofun
    · have hnone : ∀ c ∈ ([] : List Char), isSpace c = true := nofun
      have hread := readItems_further hclosing hitems hitem hnone level rest
      obtain ⟨c, more, rfl, hspace, hne⟩ := hitem.opens.ne_closing hclosing
      rw [readList, skipSpace_append fun c => isSpace_of_mem_newLine, List.cons_append,
        skipSpace_cons hspace]
      exact (if_neg hne).trans hread

theorem writeText_append (s : String) (rest : List Char) :
    writeText s ++ rest = '"' :: (s.toList.flatMap escape ++ '"' :: rest) := by
  simp [writeText]

theorem opens_writeText (s : String) (rest : List Char) : Opens (writeText s ++ rest) := by
  rw [writeText_append]
  exact ⟨_, _, rfl, rfl, by decide, by decide⟩

theorem readField_eq {read : Reader Document} {cs more afterName afterColon rest name : List Char}
    {d : Document} (hquote : skipSpace cs = '"' :: more) (hname : readText more = some (name, afterName))
    (hcolon : skipSpace afterName = ':' :: afterColon) (hvalue : read afterColon = some (d, rest)) :
    readField read cs = some ((String.ofList name, d), rest) := by
  rw [readField, hquote]
  refine Option.bind_eq_some_iff.mpr ⟨_, hname, ?_⟩
  dsimp only
  rw [hcolon]
  exact Option.bind_eq_some_iff.mpr ⟨_, hvalue, rfl⟩

theorem IsRead.field {read : Reader Document} {text : List Char} {d : Document}
    (h : IsRead read text d) (name : String) :
    IsRead (readField read) (writeText name ++ ':' :: ' ' :: text) (name, d) where
  opens := opens_writeText name _
  read_append {blanks rest} hblanks hrest := by
    have hspace : ∀ c ∈ [' '], isSpace c = true := List.forall_mem_singleton.mpr rfl
    have hquote : skipSpace (blanks ++ (writeText name ++ ':' :: ' ' :: text ++ rest)) =
        '"' :: (name.toList.flatMap escape ++ '"' :: (':' :: ' ' :: (text ++ rest))) := by
      rw [skipSpace_append hblanks, List.append_assoc, writeText_append, skipSpace_cons rfl]
      rfl
    have hread := readField_eq hquote (readText_flatMap_escape _ _) (skipSpace_cons rfl _)
      (h.read_append hspace hrest)
    rwa [String.ofList_toList] at hread

variable {inner? : Option (Reader Document)} {cs more : List Char}

theorem readValueWith_quote (h : skipSpace cs = '"' :: more) : readValueWith inner? cs =
    (readText more).map fun (s, rest) => (.text (String.ofList s), rest) := by
  rw [readValueWith, h]
  rfl

theorem readValueWith_bracket {read : Reader Document} (h : skipSpace cs = '[' :: more) :
    readValueWith (some read) cs =
      (readList ']' read more).map fun (items, rest) => (.list items, rest) := by
  rw [readValueWith, h]
  cases hread : readList ']' read more <;> simp [hread]

theorem readValueWith_brace {read : Reader Document} (h : skipSpace cs = '\x7b' :: more) :
    readValueWith (some read) cs =
      (readList '\x7d' (readField read) more).map fun (fields, rest) => (ofFields fields, rest) := by
  rw [readValueWith, h]
  cases hread : readList '\x7d' (readField read) more <;> simp [hread]

theorem readValueWith_other {c : Char} (hspace : isSpace c = false)
    (hother : ∀ d ∈ ['"', '[', '\x7b', 't', 'f', 'n'], c ≠ d) (cs : List Char) :
    readValueWith inner? (c :: cs) = readNumber? (c :: cs) := by
  rw [readValueWith, skipSpace_cons hspace]
  split
  next heq => exact absurd (List.cons.inj heq).1 (hother '"' (by simp))
  next heq => exact absurd (List.cons.inj heq).1 (hother '[' (by simp))
  next heq => exact absurd (List.cons.inj heq).1 (hother '\x7b' (by simp))
  next heq => exact absurd (List.cons.inj heq).1 (hother 't' (by simp))
  next heq => exact absurd (List.cons.inj heq).1 (hother 'f' (by simp))
  next heq => exact absurd (List.cons.inj heq).1 (hother 'n' (by simp))
  next => rfl

theorem IsRead.value {text : List Char} {d : Document} (hopens : Opens text)
    (h : ∀ rest, EndsNumber rest → readValueWith inner? (text ++ rest) = some (d, rest)) :
    IsRead (readValueWith inner?) text d where
  opens := hopens
  read_append {blanks rest} hblanks hrest := by
    rw [← h rest hrest, readValueWith, readValueWith, skipSpace_append hblanks]

theorem IsRead.text (s : String) : IsRead (readValueWith inner?) (writeText s) (.text s) := by
  refine .value (by simpa using opens_writeText s []) fun rest _ => ?_
  have hquote : skipSpace (writeText s ++ rest) = '"' :: (s.toList.flatMap escape ++ '"' :: rest) := by
    rw [writeText_append, skipSpace_cons rfl]
  rw [readValueWith_quote hquote, readText_flatMap_escape, Option.map_some]
  dsimp only
  rw [String.ofList_toList]

theorem IsRead.null : IsRead (readValueWith inner?) ['n', 'u', 'l', 'l'] .null :=
  .value ⟨_, _, rfl, rfl, by decide, by decide⟩ fun _ _ => rfl

theorem IsRead.boolean (b : Bool) (level : Nat) :
    IsRead (readValueWith inner?) (write level (.boolean b)) (.boolean b) := by
  cases b with
  | true => exact .value ⟨_, _, rfl, rfl, by decide, by decide⟩ fun _ _ => rfl
  | false => exact .value ⟨_, _, rfl, rfl, by decide, by decide⟩ fun _ _ => rfl

theorem IsRead.number {text : List Char} {d : Document} (h : readNumber? text = some (d, [])) :
    IsRead (readValueWith inner?) text d := by
  obtain ⟨c, more, rfl, hhead⟩ := exists_cons_of_readNumber? h
  have hne {other : Char} (hminus : other ≠ '-') (hdigit : other.isDigit = false) : c ≠ other := by
    rintro rfl
    obtain hc | hc := hhead
    · exact hminus hc
    · rw [hdigit] at hc
      cases hc
  have hspace : isSpace c = false := by
    simp only [isSpace, Bool.or_eq_false_iff, decide_eq_false_iff_not]
    exact ⟨⟨⟨hne (by decide) rfl, hne (by decide) rfl⟩, hne (by decide) rfl⟩, hne (by decide) rfl⟩
  have hother : ∀ d ∈ ['"', '[', '\x7b', 't', 'f', 'n'], c ≠ d := by
    simp only [List.forall_mem_cons]
    exact ⟨hne (by decide) rfl, hne (by decide) rfl, hne (by decide) rfl, hne (by decide) rfl,
      hne (by decide) rfl, hne (by decide) rfl, nofun⟩
  refine .value ⟨c, more, rfl, hspace, hne (by decide) rfl, hne (by decide) rfl⟩ fun rest hrest => ?_
  rw [List.cons_append, readValueWith_other hspace hother]
  exact readNumber?_append hrest h

theorem IsRead.block {opening closing : Char} (hclosing : closing = ']' ∨ closing = '\x7d')
    (hspace : isSpace opening = false) (hopening : opening ≠ ']' ∧ opening ≠ '\x7d')
    {texts : List (List Char)} {values : List α} (hitems : List.Forall₂ (IsRead read) texts values)
    {make : List α → Document} (hread : ∀ {cs more}, skipSpace cs = opening :: more →
      readValueWith inner? cs = (readList closing read more).map fun (vs, rest) => (make vs, rest))
    (level : Nat) :
    IsRead (readValueWith inner?) (writeBlock opening closing level texts) (make values) := by
  refine .value ?_ fun rest _ => ?_
  · obtain ⟨body, hbody, -⟩ := readList_writeBlock opening hclosing hitems level []
    rw [List.append_nil] at hbody
    exact ⟨_, _, hbody, hspace, hopening⟩
  · obtain ⟨body, hbody, hlist⟩ := readList_writeBlock opening hclosing hitems level rest
    rw [hbody, hread (skipSpace_cons hspace _), hlist, Option.map_some]

theorem IsRead.list {read : Reader Document} {texts : List (List Char)} {items : List Document}
    (h : List.Forall₂ (IsRead read) texts items) (level : Nat) :
    IsRead (readValueWith (some read)) (writeBlock '[' ']' level texts) (.list items) :=
  .block (.inl rfl) rfl (by decide) h readValueWith_bracket level

theorem IsRead.object {read : Reader Document} {texts : List (List Char)}
    {fields : List (String × Document)} (h : List.Forall₂ (IsRead (readField read)) texts fields)
    (level : Nat) : IsRead (readValueWith (some read)) (writeBlock '\x7b' '\x7d' level texts)
      (ofFields fields) :=
  .block (.inr rfl) rfl (by decide) h readValueWith_brace level

end Tabular.Document

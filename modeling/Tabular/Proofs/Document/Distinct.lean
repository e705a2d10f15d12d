import Mathlib.Data.List.Nodup
import Tabular.Document.Reader

/-!
# Names in documents

A reader meets a name more than once in one object, but the object that it builds has a field for each
name only once: at the first place, with the last value.
-/
namespace Tabular.Document

/-- No object in the document, however deep, has two fields of one name. -/
inductive Distinct : Document → Prop
  | null : Distinct null
  | boolean (b : Bool) : Distinct (boolean b)
  | whole (n : Int) : Distinct (whole n)
  | number (x : Float) : Distinct (number x)
  | text (s : String) : Distinct (text s)
  | list {items : List Document} (h : ∀ d ∈ items, Distinct d) : Distinct (list items)
  | object {fields : List (String × Document)} (hnames : (fields.map (·.1)).Nodup)
      (h : ∀ field ∈ fields, Distinct field.2) : Distinct (object fields)

theorem Distinct.items {items : List Document} (h : Distinct (Document.list items)) :
    ∀ d ∈ items, Distinct d := by
  cases h with
  | list h => exact h

theorem Distinct.nodup_names {fields : List (String × Document)} (h : Distinct (Document.object fields)) :
    (fields.map (·.1)).Nodup := by
  cases h with
  | object hnames _ => exact hnames

theorem Distinct.values {fields : List (String × Document)} (h : Distinct (Document.object fields)) :
    ∀ field ∈ fields, Distinct field.2 := by
  cases h with
  | object _ h => exact h

variable {fields : List (String × Document)}

theorem any_name_iff {field : String × Document} :
    fields.any (·.1 = field.1) = true ↔ field.1 ∈ fields.map (·.1) := by
  rw [List.any_eq_true, List.mem_map]
  simp only [decide_eq_true_eq]

theorem setField_of_new {field : String × Document} (h : field.1 ∉ fields.map (·.1)) :
    setField fields field = fields ++ [field] := if_neg (mt any_name_iff.mp h)

theorem names_setField (fields : List (String × Document)) (field : String × Document) :
    (setField fields field).map (·.1) =
      if field.1 ∈ fields.map (·.1) then fields.map (·.1) else fields.map (·.1) ++ [field.1] := by
  by_cases hold : field.1 ∈ fields.map (·.1)
  · rw [setField, if_pos (any_name_iff.mpr hold), if_pos hold, List.map_map]
    refine List.map_congr_left fun old _ => ?_
    rw [Function.comp_apply]
    split <;> rfl
  · rw [setField_of_new hold, if_neg hold, List.map_append]
    rfl

theorem foldl_setField (front fields : List (String × Document))
    (h : ((front ++ fields).map (·.1)).Nodup) : fields.foldl setField front = front ++ fields := by
  induction fields generalizing front with
  | nil => rw [List.foldl_nil, List.append_nil]
  | cons field rest ih =>
    rw [List.append_cons] at h ⊢
    have hnew : field.1 ∉ front.map (·.1) := by
      rw [List.map_append, List.map_append] at h
      have hfront := (List.nodup_append.mp h).1
      exact fun hmem => (List.nodup_append.mp hfront).2.2 _ hmem _ (by simp) rfl
    rw [List.foldl_cons, setField_of_new hnew, ih _ h]

/-- Fields of different names are those of their object. -/
theorem ofFields_of_nodup (h : (fields.map (·.1)).Nodup) : ofFields fields = object fields := by
  rw [ofFields, foldl_setField [] fields h, List.nil_append]

/-- Setting a field keeps the names of an object apart. -/
theorem distinct_setField (h : Distinct (object fields)) {field : String × Document}
    (hfield : Distinct field.2) : Distinct (object (setField fields field)) := by
  constructor
  · rw [names_setField]
    split
    next => exact h.nodup_names
    next hnew => exact List.concat_eq_append ▸ h.nodup_names.concat hnew
  · intro new hnew
    rw [setField] at hnew
    split at hnew
    · obtain ⟨old, hold, rfl⟩ := List.mem_map.mp hnew
      split
      · exact hfield
      · exact h.values old hold
    · rcases List.mem_append.mp hnew with hold | hlast
      · exact h.values new hold
      · rwa [List.mem_singleton.mp hlast]

theorem distinct_ofFields (h : ∀ field ∈ fields, Distinct field.2) : Distinct (ofFields fields) := by
  refine List.foldlRecOn (motive := fun fields => Distinct (object fields)) fields _ ?_ ?_
  · exact .object List.nodup_nil nofun
  · exact fun front hfront field hfield => distinct_setField hfront (h field hfield)

/-- The reader gives nothing but values with a property. -/
def Gives {α : Type} (read : Reader α) (P : α → Prop) : Prop :=
  ∀ ⦃cs a rest⦄, read cs = some (a, rest) → P a

section
variable {α : Type} {read : Reader α} {P : α → Prop} {closing : Char}

theorem Gives.items (hread : Gives read P) :
    Gives (readItems closing read) fun items => ∀ a ∈ items, P a := by
  intro cs items rest h
  fun_induction readItems closing read cs generalizing items rest with
  | case1 => cases h
  | case2 => cases h
  | case3 cs item _ hitem =>
    cases h
    exact List.forall_mem_singleton.mpr (hread hitem)
  | case4 cs item _ hitem _ more _ _ _ ih =>
    obtain ⟨⟨further, left⟩, hfurther, h⟩ := Option.map_eq_some_iff.mp h
    cases h
    exact List.forall_mem_cons.mpr ⟨hread hitem, ih hfurther⟩
  | case5 => cases h

theorem Gives.list (hread : Gives read P) :
    Gives (readList closing read) fun items => ∀ a ∈ items, P a := by
  intro cs items rest h
  rw [readList] at h
  split at h
  next => cases h
  next =>
    split at h
    next =>
      cases h
      exact List.forall_mem_nil _
    next => exact hread.items h

end

theorem Gives.field {read : Reader Document} {P : Document → Prop} (hread : Gives read P) :
    Gives (readField read) fun field => P field.2 := by
  intro cs field rest h
  rw [readField] at h
  split at h
  next =>
    obtain ⟨⟨name, afterName⟩, -, h⟩ := Option.bind_eq_some_iff.mp h
    dsimp only at h
    split at h
    next =>
      obtain ⟨⟨d, afterValue⟩, hvalue, h⟩ := Option.bind_eq_some_iff.mp h
      cases h
      exact hread hvalue
    next => cases h
  next => cases h

theorem distinct_of_readNumber? {cs rest : List Char} {d : Document}
    (h : readNumber? cs = some (d, rest)) : Distinct d := by
  rw [readNumber?.eq_def] at h
  split at h <;>
  · obtain ⟨⟨x, left⟩, -, h⟩ := Option.map_eq_some_iff.mp h
    cases h
    exact .number _

theorem Gives.value {inner? : Option (Reader Document)} (hinner : ∀ read ∈ inner?, Gives read Distinct) :
    Gives (readValueWith inner?) Distinct := by
  intro cs d rest h
  rw [readValueWith] at h
  split at h
  next =>
    obtain ⟨⟨s, left⟩, -, h⟩ := Option.map_eq_some_iff.mp h
    cases h
    exact .text _
  next =>
    obtain ⟨read, hread, h⟩ := Option.bind_eq_some_iff.mp h
    obtain ⟨⟨items, left⟩, hitems, h⟩ := Option.bind_eq_some_iff.mp h
    cases h
    exact .list ((hinner read hread).list hitems)
  next =>
    obtain ⟨read, hread, h⟩ := Option.bind_eq_some_iff.mp h
    obtain ⟨⟨fields, left⟩, hfields, h⟩ := Option.bind_eq_some_iff.mp h
    cases h
    exact distinct_ofFields ((hinner read hread).field.list hfields)
  next =>
    cases h
    exact .boolean _
  next =>
    cases h
    exact .boolean _
  next =>
    cases h
    exact .null
  next => exact distinct_of_readNumber? h

theorem gives_readValue (depth : Nat) : Gives (readValue depth) Distinct := by
  induction depth with
  | zero => exact .value nofun
  | succ depth ih =>
    refine .value fun read hread => ?_
    cases hread
    exact ih

/-- In a document that is read, the fields of each object have names of their own. -/
theorem distinct_of_parse? {cs : List Char} {d : Document} (h : parse? cs = some d) : Distinct d := by
  rw [parse?] at h
  split at h
  next hread =>
    split at h
    · cases h
      exact gives_readValue _ hread
    · cases h
  next => cases h

end Tabular.Document

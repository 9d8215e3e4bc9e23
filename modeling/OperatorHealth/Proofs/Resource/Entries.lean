import OperatorHealth.Proofs.Resource.Reencoding

/-!
# Entries of a mapping

How the entries of a mapping are read: a text that has to be there, a text that may be left out, a
list of values. For each it is said which mappings give a value and which one, what can go wrong,
and that the entries of other keys make no difference.

A null that stands where a text is expected is read as the text `null`. What is said of texts is
for mappings without such nulls.

## Main definitions

* `Document.HasText`, `Document.MayHaveText`, `Document.MayHaveItems`: what a mapping may hold.
* `Document.TextsGiven`: no null stands where a text is expected.
* `Document.trim`: a mapping without the entries of unknown keys.

## Main results

* `Document.requiredText_eq_ok_iff`, `Document.optionalText_eq_ok_iff`,
  `Document.optionalList_eq_ok_iff`: what is read.
* `NodeError.onlyConversion_requireMapping`: a mapping can be asked for its entries.
* `Document.field?_trim`: keys that are not known.
-/

namespace OperatorHealth

open Document

/-! ### What is read -/

namespace Document

variable {α : Type} {key text : String} {keys : List String} {d v : Document}
  {es : List (Document × Document)}

/-- The mapping has a text. -/
def HasText (key text : String) (es : List (Document × Document)) : Prop :=
  findEntry key es = some (scalar text)

/-- The mapping has a text, or leaves out the empty one. -/
def MayHaveText (key text : String) (es : List (Document × Document)) : Prop :=
  findEntry key es = none ∧ text = "" ∨ HasText key text es

/-- The mapping has a sequence of documents for the values, one for each, or leaves out the empty
one. -/
def MayHaveItems (key : String) (Denotes : Document → α → Prop) (as : List α)
    (es : List (Document × Document)) : Prop :=
  findEntry key es = none ∧ as = [] ∨
    ∃ items, findEntry key es = some (sequence items) ∧ List.Forall₂ Denotes items as

/-- None of the entries of some keys is null. -/
def TextsGiven (keys : List String) (d : Document) : Prop :=
  ∀ key ∈ keys, ∀ v ∈ d.valueAt? key, v.isNull = false

instance (keys : List String) (d : Document) : Decidable (d.TextsGiven keys) :=
  inferInstanceAs (Decidable (∀ key ∈ keys, ∀ v ∈ d.valueAt? key, v.isNull = false))

theorem exists_mapping_of_eq_ok {f : Unit → Except NodeError α} {a : α}
    (h : (d.requireMapping >>= f) = .ok a) : ∃ es, d = mapping es ∧ f () = .ok a := by
  cases d with
  | mapping es => exact ⟨es, rfl, h⟩
  | null => cases h
  | scalar s => cases h
  | sequence items => cases h

theorem requireMapping_bind (f : Unit → Except NodeError α) :
    ((mapping es).requireMapping >>= f) = f () := rfl

theorem text_eq_ok_iff (h : d.isNull = false) : d.text = .ok text ↔ d = scalar text := by
  cases d <;> simp [Document.text, isNull] at h ⊢

theorem requiredText_eq_ok_iff (h : (mapping es).TextsGiven keys) (hkey : key ∈ keys) :
    (mapping es).requiredText key = .ok text ↔ HasText key text es := by
  have hgiven : ∀ v, findEntry key es = some v → v.isNull = false := h key hkey
  rw [requiredText, HasText, field?, Except.bind_eq_ok]
  cases hv : findEntry key es with
  | none => simp
  | some v => simp [text_eq_ok_iff (hgiven v hv)]

theorem optionalText_eq_ok_iff (h : (mapping es).TextsGiven keys) (hkey : key ∈ keys) :
    (mapping es).optionalText key = .ok text ↔ MayHaveText key text es := by
  have hgiven : ∀ v, findEntry key es = some v → v.isNull = false := h key hkey
  rw [optionalText, MayHaveText, HasText, field?, Except.bind_eq_ok]
  cases hv : findEntry key es with
  | none => simp [eq_comm]
  | some v => simp [text_eq_ok_iff (hgiven v hv)]

/-- Items convert to values one by one, each as it does by itself. -/
theorem mapM_eq_ok_iff_forall₂ {convert : Document → Except NodeError α}
    {Denotes : Document → α → Prop} {items : List Document} {as : List α}
    (h : ∀ item ∈ items, ∀ a, convert item = .ok a ↔ Denotes item a) :
    items.mapM convert = .ok as ↔ List.Forall₂ Denotes items as := by
  rw [mapM_eq_ok]
  induction items generalizing as with
  | nil => cases as <;> simp
  | cons item items ih =>
    rw [List.forall_mem_cons] at h
    cases as with
    | nil => simp
    | cons a as => rw [List.forall₂_cons, List.forall₂_cons, h.1, ih h.2]

/-- A list of values is read from a sequence if each value is read from its item. -/
theorem optionalList_eq_ok_iff {convert : Document → Except NodeError α}
    {Denotes : Document → α → Prop} {as : List α}
    (h : ∀ v ∈ (mapping es).valueAt? key, ∀ item ∈ v.items, ∀ a,
      convert item = .ok a ↔ Denotes item a) :
    (mapping es).optionalList key convert = .ok as ↔ MayHaveItems key Denotes as es := by
  have hitems : ∀ v, findEntry key es = some v → ∀ item ∈ v.items, ∀ a,
      convert item = .ok a ↔ Denotes item a := h
  rw [optionalList, MayHaveItems, field?, Except.bind_eq_ok]
  cases hv : findEntry key es with
  | none => simp [eq_comm]
  | some v =>
    cases v with
    | sequence items =>
      have hitem : ∀ item ∈ items, ∀ a, convert item = .ok a ↔ Denotes item a := hitems _ hv
      simpa [Document.list] using mapM_eq_ok_iff_forall₂ hitem
    | null => simp [Document.list]
    | scalar s => simp [Document.list]
    | mapping es' => simp [Document.list]

end Document

/-! ### What can go wrong -/

namespace NodeError

variable {α : Type}

theorem onlyConversion_orConversion (o : Option α) : OnlyConversion (orConversion o) := by
  cases o with
  | none => exact onlyConversion_badConversion
  | some a => exact onlyConversion_ok a

/-- Only a mapping is asked for its entries, and a mapping can be asked. -/
theorem onlyConversion_requireMapping {d : Document} {f : Unit → Except NodeError α}
    (h : ∀ es, d = mapping es → OnlyConversion (f ())) :
    OnlyConversion (d.requireMapping >>= f) := by
  cases d with
  | mapping es => exact h es rfl
  | null => exact onlyConversion_badConversion
  | scalar s => exact onlyConversion_badConversion
  | sequence items => exact onlyConversion_badConversion

section Mapping

variable (key : String) (es : List (Document × Document))

theorem onlyConversion_field? : OnlyConversion ((mapping es).field? key) :=
  onlyConversion_ok _

theorem onlyConversion_requiredText : OnlyConversion ((mapping es).requiredText key) := by
  refine (onlyConversion_field? key es).bind fun field => ?_
  cases field with
  | none => exact onlyConversion_badConversion
  | some v => exact onlyConversion_text v

theorem onlyConversion_optionalText : OnlyConversion ((mapping es).optionalText key) := by
  refine (onlyConversion_field? key es).bind fun field => ?_
  cases field with
  | none => exact onlyConversion_ok _
  | some v => exact onlyConversion_text v

theorem onlyConversion_optionalList {convert : Document → Except NodeError α}
    (h : ∀ d, OnlyConversion (convert d)) :
    OnlyConversion ((mapping es).optionalList key convert) := by
  refine (onlyConversion_field? key es).bind fun field => ?_
  cases field with
  | none => exact onlyConversion_ok _
  | some v => exact onlyConversion_list h v

end Mapping

end NodeError

/-! ### Keys that are not known -/

namespace Document

variable {α : Type} {key : String} {known : List (String × (Document → Document))}
  {f : Document → Document} (d : Document)

/-- An entry changed as is said for its key, if that is known. A key that is no scalar is not. -/
def trimEntry (known : List (String × (Document → Document))) (e : Document × Document) :
    Option (Document × Document) :=
  (e.1.key?.bind (known.lookup ·)).map fun f => (e.1, f e.2)

/-- A mapping without the entries of keys that are not known, the others changed as is said for
their keys. -/
def trim (known : List (String × (Document → Document))) : Document → Document
  | mapping es => mapping (es.filterMap (trimEntry known))
  | d => d

/-- A sequence with each of its items changed. -/
def mapItems (f : Document → Document) : Document → Document
  | sequence items => sequence (items.map f)
  | d => d

theorem requireMapping_trim : (d.trim known).requireMapping = d.requireMapping := by
  cases d <;> rfl

theorem findEntry_trim (h : known.lookup key = some f) (es : List (Document × Document)) :
    findEntry key (es.filterMap (trimEntry known)) = (findEntry key es).map f := by
  induction es with
  | nil => rfl
  | cons e es ih =>
    by_cases hkey : e.1.key? = some key
    · simp [findEntry, trimEntry, hkey, h]
    · have htail : findEntry key (e :: es) = findEntry key es := by simp [findEntry, hkey]
      rw [htail, ← ih, List.filterMap_cons, trimEntry]
      cases e.1.key?.bind (known.lookup ·) with
      | none => rfl
      | some g => simp [findEntry, hkey]

theorem field?_trim (h : known.lookup key = some f) :
    (d.trim known).field? key = (d.field? key).map (Option.map f) := by
  cases d with
  | mapping es => exact congrArg Except.ok (findEntry_trim h es)
  | null => rfl
  | scalar s => rfl
  | sequence items => rfl

/-- An entry that is left as it is. -/
theorem field?_trim_id (h : known.lookup key = some id) :
    (d.trim known).field? key = d.field? key := by
  rw [field?_trim d h]
  cases d.field? key <;> simp [Except.map]

theorem requiredText_trim (h : known.lookup key = some id) :
    (d.trim known).requiredText key = d.requiredText key := by
  rw [requiredText, requiredText, field?_trim_id d h]

theorem optionalText_trim (h : known.lookup key = some id) :
    (d.trim known).optionalText key = d.optionalText key := by
  rw [optionalText, optionalText, field?_trim_id d h]

theorem list_mapItems {convert : Document → Except NodeError α}
    (hconvert : ∀ d, convert (f d) = convert d) : (mapItems f d).list convert = d.list convert := by
  cases d with
  | sequence items => simp [mapItems, Document.list, List.mapM_map, Function.comp_def, hconvert]
  | null => rfl
  | scalar s => rfl
  | mapping es => rfl

theorem optionalList_trim {convert : Document → Except NodeError α}
    (h : known.lookup key = some (mapItems f)) (hconvert : ∀ d, convert (f d) = convert d) :
    (d.trim known).optionalList key convert = d.optionalList key convert := by
  rw [optionalList, optionalList, field?_trim d h]
  cases d.field? key with
  | error e => rfl
  | ok field =>
    cases field with
    | none => rfl
    | some v => exact list_mapItems v hconvert

section Restrict

variable {keys : List String}

/-- A mapping without the entries of keys other than some, which are left as they are. -/
def restrict (keys : List String) : Document → Document := trim (keys.map (·, id))

theorem lookup_restrict (h : key ∈ keys) :
    (keys.map (·, (id : Document → Document))).lookup key = some id := by
  induction keys with
  | nil => cases h
  | cons k keys ih =>
    rcases eq_or_ne key k with rfl | hne
    · simp
    · rw [List.map_cons, List.lookup_cons, beq_false_of_ne hne]
      exact ih (List.mem_of_ne_of_mem hne h)

theorem field?_restrict (h : key ∈ keys) : (d.restrict keys).field? key = d.field? key :=
  field?_trim_id d (lookup_restrict h)

theorem requiredText_restrict (h : key ∈ keys) :
    (d.restrict keys).requiredText key = d.requiredText key :=
  requiredText_trim d (lookup_restrict h)

theorem optionalText_restrict (h : key ∈ keys) :
    (d.restrict keys).optionalText key = d.optionalText key :=
  optionalText_trim d (lookup_restrict h)

end Restrict

end Document

end OperatorHealth

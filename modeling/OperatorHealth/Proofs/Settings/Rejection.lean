import OperatorHealth.Proofs.Settings.Rules

/-!
# Documents that give no settings

A file gives no settings if it cannot be opened, if its text is no document, or if the document
breaks one of the rules for settings. The rules are checked in the order of the sections, and the
first that is broken says what is wrong: something is missing, or has the wrong type, or a value
that cannot be taken.

## Main definitions

* `Settings.rules`, `Settings.referenceRules`: the rules for settings and for one related object.
* `Settings.Rejects`: why a file gives no settings.

## Main results

* `Settings.fails_ofDocument`: documents that give no settings.
* `Settings.load_eq_error_iff`: files that give no settings.
-/

namespace OperatorHealth.Settings

open Document NodeError

variable {α : Type} {release : Option String} {root node d : Document} {key field text : String}
  {start : List String} {tree : FileTree} {path : String} {e : SettingsError}

/-! ### Values that are refused -/

/-- A node that says nothing has the wrong type for a text. -/
def RefusesText (field : String) (d : Document) (e : SettingsError) : Prop :=
  (∀ text, ¬ d.Says text) ∧ e = .wrongType field

/-- The name of the operator is a text that is not empty. -/
def RefusesName (field : String) (d : Document) (e : SettingsError) : Prop :=
  RefusesText field d e ∨ d.Says "" ∧ e = .emptyOperatorName

/-- A number fits 64 bits and is not too small. -/
def RefusesNumber (least : Int) (tooSmall : SettingsError) (field : String) (d : Document)
    (e : SettingsError) : Prop :=
  (∀ n, d.Spells n → n < -2 ^ 63 ∨ 2 ^ 63 ≤ n) ∧ e = .wrongType field ∨
    ∃ n, d.Spells n ∧ -2 ^ 63 ≤ n ∧ n < least ∧ e = tooSmall

/-- A log level is one of the texts of the levels. -/
def RefusesLevel (field : String) (d : Document) (e : SettingsError) : Prop :=
  RefusesText field d e ∨
    ∃ text, d.Says text ∧ (∀ level : LogLevel, text ≠ level.text) ∧ e = .unknownLogLevel text

/-- Names of workloads are a sequence of texts, each of which is parsed. The first that is not is
reported. -/
def RefusesNames (field : String) (d : Document) (e : SettingsError) : Prop :=
  (∀ items texts, d = sequence items → ¬ List.Forall₂ Says items texts) ∧ e = .wrongType field ∨
    ∃ items before text after error, d = sequence items ∧
      List.Forall₂ Says items (before ++ text :: after) ∧
      (∀ t ∈ before, ∃ id, WorkloadName.parse? t = .ok id) ∧
      WorkloadName.parse? text = .error error ∧ e = .badWorkload field error

/-- The rules for one of the related objects. -/
def referenceRules : List Rule :=
  [.may ["group"] RefusesText, .must ["resource"] RefusesText, .may ["namespace"] RefusesText,
    .must ["name"] RefusesText]

/-- Related objects are a sequence, and the first that breaks a rule is reported by its number. -/
def RefusesReferences (field : String) (d : Document) (e : SettingsError) : Prop :=
  (∀ items, d ≠ sequence items) ∧ e = .wrongType field ∨
    ∃ before item after, d = sequence (before ++ item :: after) ∧
      (∀ x ∈ before, ∃ r, DenotesReference x r) ∧
      FirstBroken [s!"related_objects[{before.length}]"] item referenceRules e

/-! ### The rules for settings -/

/-- The rules for settings, in the order in which they are checked. -/
def rules : List Rule :=
  [.may ["app_name"] RefusesText,
    .may ["version"] RefusesText,
    .must ["cluster_operator", "name"] RefusesName,
    .may ["cluster_operator", "release_version"] RefusesText,
    .may ["publisher", "queue_capacity"] (RefusesNumber 1 .noCapacity),
    .may ["logging", "level"] RefusesLevel,
    .must ["store", "path"] RefusesText,
    .must ["workloads", "state_file"] RefusesText,
    .may ["workloads", "sync_interval_ms"] (RefusesNumber 100 .shortInterval),
    .may ["workloads", "daemonsets"] RefusesNames,
    .may ["workloads", "deployments"] RefusesNames,
    .may ["related_objects"] RefusesReferences]

/-- Why the file at the end of a path gives no settings. -/
inductive Rejects [DocumentFormat] (tree : FileTree) (path : String) : SettingsError → Prop
  | notFound (h : tree.load? path = .error .cannotOpen) : Rejects tree path (.fileNotFound path)
  | malformed (h : tree.load? path = .error .malformed) : Rejects tree path (.malformedFile path)
  | broken {root : Document} {e : SettingsError} (h : tree.load? path = .ok root)
      (hbroken : FirstBroken [] root rules e) : Rejects tree path e

/-! ### Readers of one value -/

theorem convert_eq_error_iff {conversion : Document → Except NodeError α}
    (h : OnlyConversion (conversion d)) :
    convert field conversion d = .error e ↔
      (∀ a, conversion d ≠ .ok a) ∧ e = .wrongType field := by
  rw [convert]
  cases hd : conversion d with
  | ok a => simp
  | error error =>
    obtain rfl := h error hd
    simp [eq_comm]

theorem convertText_eq_error_iff :
    convert field Document.text d = .error e ↔ RefusesText field d e := by
  simp only [convert_eq_error_iff (onlyConversion_text d), RefusesText, ne_eq, text_eq_ok_iff_says]

theorem int64_ne_ok_iff :
    (∀ n, d.int64 ≠ .ok n) ↔ ∀ n, d.Spells n → n < -2 ^ 63 ∨ 2 ^ 63 ≤ n := by
  simp only [ne_eq, int64_eq_ok_iff]
  constructor
  · intro h n hn
    by_contra hfits
    have hofInt := Int64.toInt_ofInt_of_le (n := n) (by omega) (by omega)
    exact h (.ofInt n) (hofInt.symm ▸ hn)
  · intro h n hn
    have hle := n.le_toInt
    have hlt := n.toInt_lt
    have hout := h _ hn
    omega

/-- A number that is checked as it is written. -/
theorem fails_atLeast {bound : Int64} {tooSmall : SettingsError} {f : Int64 → α} :
    Fails (convert field Document.int64 d >>= fun n =>
        if n < bound then .error tooSmall else pure (f n))
      (RefusesNumber bound.toInt tooSmall field d) := by
  intro e
  have hsmall (n : Int64) : (if n < bound then .error tooSmall else pure (f n)) = Except.error e ↔
      n.toInt < bound.toInt ∧ e = tooSmall := by
    rw [← Int64.lt_iff_toInt_lt]
    by_cases hlt : n < bound <;> simp [hlt, pure, Except.pure, eq_comm]
  simp only [Except.bind_eq_error, convert_eq_ok_iff, int64_eq_ok_iff, hsmall,
    convert_eq_error_iff (onlyConversion_int64 d), int64_ne_ok_iff, RefusesNumber]
  refine or_congr_right ⟨?_, ?_⟩
  · rintro ⟨n, hn, hlt, he⟩
    exact ⟨n.toInt, hn, n.le_toInt, hlt, he⟩
  · rintro ⟨n, hn, hle, hlt, he⟩
    have hbound := bound.toInt_lt
    have hofInt := Int64.toInt_ofInt_of_le hle (by omega)
    exact ⟨.ofInt n, hofInt.symm ▸ hn, hofInt.symm ▸ hlt, he⟩

theorem fails_parseNames {d : Document} : Fails (do
      let texts ← convert field (Document.list Document.text) d
      let _ ← (WorkloadName.parseAll? texts).mapError (SettingsError.badWorkload field)
      return texts) (RefusesNames field d) := by
  intro e
  have hlist : (∀ texts, d.list Document.text ≠ .ok texts) ↔
      ∀ items texts, d = sequence items → ¬ List.Forall₂ Says items texts := by
    simp only [ne_eq, list_eq_ok_iff, text_eq_ok_iff_says]
    grind
  have hbad (texts : List String) :
      (WorkloadName.parseAll? texts).mapError (SettingsError.badWorkload field) = .error e ↔
        ∃ error, WorkloadName.parseAll? texts = .error error ∧ e = .badWorkload field error := by
    cases WorkloadName.parseAll? texts <;> simp [Except.mapError, eq_comm]
  have hpure (texts : List String) : (pure texts : Except SettingsError _) ≠ .error e := nofun
  simp only [Except.bind_eq_error, convert_eq_ok_iff, list_eq_ok_iff, text_eq_ok_iff_says,
    convert_eq_error_iff (onlyConversion_list onlyConversion_text d), hlist, RefusesNames, hbad,
    hpure, and_false, exists_false, or_false, WorkloadName.parseAll?_eq_error_iff]
  grind

/-! ### Readers of one field -/

theorem fails_textOr {default : String} (hfield : field = fieldName (start ++ [key])) :
    Fails (textOr default key field node) (FirstBroken start node [.may [key] RefusesText]) :=
  fails_field?_bind_of_refuses hfield nofun fun _ _ => convertText_eq_error_iff

theorem fails_requiredText (hfield : field = fieldName (start ++ [key])) :
    Fails (requiredText key field node) (FirstBroken start node [.must [key] RefusesText]) :=
  fails_required_bind_of_refuses hfield fun _ _ => convertText_eq_error_iff

theorem fails_readNames (hfield : field = fieldName (start ++ [key])) :
    Fails (readNames key field node) (FirstBroken start node [.may [key] RefusesNames]) :=
  fails_field?_bind_of_refuses hfield nofun fun _ => fails_parseNames

theorem fails_readInterval : Fails (readInterval node) (FirstBroken ["workloads"] node
    [.may ["sync_interval_ms"] (RefusesNumber 100 .shortInterval)]) :=
  fails_field?_bind_of_refuses rfl nofun fun _ => fails_atLeast

/-! ### Readers of sections -/

theorem fails_readName (hfield : field = fieldName (start ++ [key])) :
    Fails (requiredText key field node >>= fun name =>
        if name = "" then .error .emptyOperatorName else .ok name)
      (FirstBroken start node [.must [key] RefusesName]) := by
  rw [requiredText, bind_assoc]
  refine fails_required_bind_of_refuses hfield fun d e => ?_
  have hempty (name : String) :
      (if name = "" then .error .emptyOperatorName else .ok name) = Except.error e ↔
        name = "" ∧ e = .emptyOperatorName := by
    by_cases hname : name = "" <;> simp [hname, eq_comm]
  simp only [Except.bind_eq_error, convert_eq_ok_iff, text_eq_ok_iff_says, hempty,
    convertText_eq_error_iff, RefusesName]
  grind

theorem fails_readOperator : Fails (readOperator root)
    (FirstBroken [] root [.must ["cluster_operator", "name"] RefusesName,
      .may ["cluster_operator", "release_version"] RefusesText]) := by
  refine fails_required_bind rfl fun v hv hne => ?_
  -- the name is checked before the release is read
  have hname (rest : String → Except SettingsError (String × String)) :
      (requiredText "name" "cluster_operator.name" v >>= fun name =>
        if name = "" then .error .emptyOperatorName else rest name) =
      (requiredText "name" "cluster_operator.name" v >>= fun name =>
        if name = "" then .error .emptyOperatorName else .ok name) >>= rest := by
    rw [bind_assoc]
    refine congrArg _ (funext fun name => ?_)
    by_cases hempty : name = "" <;> simp [hempty, bind, Except.bind]
  refine (congrArg (Fails · _) (hname _)).mpr ?_
  refine Fails.bind_cons (.of_section (fails_readName rfl) hv hne) fun name _ => ?_
  refine Fails.bind_cons (.of_section (fails_textOr rfl) hv hne) fun release _ => ?_
  exact fails_ok _

theorem fails_readCapacity : Fails (readCapacity root)
    (FirstBroken [] root [.may ["publisher", "queue_capacity"] (RefusesNumber 1 .noCapacity)]) :=
  fails_section rfl fun _ => fails_atLeast

theorem fails_readLogLevel : Fails (readLogLevel root)
    (FirstBroken [] root [.may ["logging", "level"] RefusesLevel]) := by
  have hfield : "logging.level" = fieldName ([] ++ ["logging"] ++ ["level"]) := rfl
  refine fails_section hfield fun d e => ?_
  simp only [Except.bind_eq_error, convert_eq_ok_iff, text_eq_ok_iff_says,
    convertText_eq_error_iff, RefusesLevel]
  refine or_congr_right (exists_congr fun text => and_congr_right fun _ => ?_)
  simp only [ne_eq, ← LogLevel.ofText?_eq_some_iff]
  cases LogLevel.ofText? text <;> simp [pure, Except.pure, eq_comm]

theorem fails_readStorePath : Fails (readStorePath root)
    (FirstBroken [] root [.must ["store", "path"] RefusesText]) := by
  refine fails_required_bind rfl fun _ hv hne => Fails.of_section ?_ hv hne
  exact fails_requiredText rfl

/-! ### Readers of related objects -/

theorem fails_readReference : Fails (readReference field d)
    (FirstBroken [field] d referenceRules) := by
  have hkey (key : String) : field ++ ("." ++ key) = fieldName ([field] ++ [key]) :=
    (String.append_assoc ..).symm
  rw [readReference, referenceRules]
  refine Fails.bind_cons (fails_textOr (hkey "group")) fun group _ => ?_
  refine Fails.bind_cons (fails_requiredText (hkey "resource")) fun resource _ => ?_
  refine Fails.bind_cons (fails_textOr (hkey "namespace")) fun ns _ => ?_
  refine Fails.bind_cons (fails_requiredText (hkey "name")) fun name _ => ?_
  exact fails_ok _

theorem readReferencesFrom_eq_error_iff {i : Nat} {items : List Document} :
    readReferencesFrom i items = .error e ↔ ∃ before item after, items = before ++ item :: after ∧
      (∀ x ∈ before, ∃ r, DenotesReference x r) ∧
      FirstBroken [s!"related_objects[{i + before.length}]"] item referenceRules e := by
  induction items generalizing i with
  | nil => simp [readReferencesFrom]
  | cons d items ih =>
    simp only [readReferencesFrom, Except.bind_eq_error, readReference_eq_ok_iff,
      fails_readReference e, ih]
    constructor
    · rintro (hd | ⟨r, hr, ⟨before, item, after, rfl, hbefore, hitem⟩ | ⟨rs, -, hpure⟩⟩)
      · exact ⟨[], d, items, rfl, List.forall_mem_nil _, hd⟩
      · refine ⟨d :: before, item, after, rfl, List.forall_mem_cons.mpr ⟨⟨r, hr⟩, hbefore⟩, ?_⟩
        rwa [List.length_cons, Nat.add_comm before.length, ← Nat.add_assoc]
      · cases hpure
    · rintro ⟨before, item, after, h, hbefore, hitem⟩
      cases before with
      | nil =>
        obtain ⟨rfl, rfl⟩ := List.cons.inj h
        exact .inl hitem
      | cons x before =>
        obtain ⟨rfl, rfl⟩ := List.cons.inj h
        obtain ⟨⟨r, hr⟩, hbefore⟩ := List.forall_mem_cons.mp hbefore
        rw [List.length_cons, Nat.add_comm before.length, ← Nat.add_assoc] at hitem
        exact .inr ⟨r, hr, .inl ⟨before, item, after, rfl, hbefore, hitem⟩⟩

theorem fails_readReferences : Fails (readReferences root)
    (FirstBroken [] root [.may ["related_objects"] RefusesReferences]) := by
  have hfield : "related_objects" = fieldName ([] ++ ["related_objects"]) := rfl
  refine fails_field?_bind_of_refuses hfield nofun fun d e => ?_
  cases d with
  | sequence items => simp [readReferencesFrom_eq_error_iff, RefusesReferences]
  | null => simp [RefusesReferences, eq_comm]
  | scalar s => simp [RefusesReferences, eq_comm]
  | mapping es => simp [RefusesReferences, eq_comm]

/-! ### Documents and files -/

theorem fails_ofDocument : Fails (ofDocument release root) (FirstBroken [] root rules) := by
  rw [ofDocument, rules]
  refine Fails.bind_cons (fails_textOr rfl) fun appName _ => ?_
  refine Fails.bind_cons (fails_textOr rfl) fun version _ => ?_
  refine Fails.bind fails_readOperator fun operator _ => ?_
  refine Fails.bind_cons fails_readCapacity fun capacity _ => ?_
  refine Fails.bind_cons fails_readLogLevel fun logLevel _ => ?_
  refine Fails.bind_cons fails_readStorePath fun storePath _ => ?_
  refine fails_required_bind rfl fun w hw hne => ?_
  refine Fails.bind_cons (.of_section (fails_requiredText rfl) hw hne) fun stateFile _ => ?_
  refine Fails.bind_cons (fails_readInterval.of_section hw hne) fun interval _ => ?_
  refine Fails.bind_cons (.of_section (fails_readNames rfl) hw hne) fun daemonSets _ => ?_
  refine Fails.bind_cons (.of_section (fails_readNames rfl) hw hne) fun deployments _ => ?_
  refine Fails.bind_cons fails_readReferences fun related _ => ?_
  exact fails_ok _

section Load

variable [DocumentFormat]

theorem load_of_load? (h : tree.load? path = .ok root) :
    load release tree path = ofDocument release root := by
  rw [load, h]

/-- Files that give no settings. -/
theorem load_eq_error_iff : load release tree path = .error e ↔ Rejects tree path e := by
  constructor
  · intro h
    rw [load] at h
    split at h
    · cases h
      exact .notFound ‹_›
    · cases h
      exact .malformed ‹_›
    · exact .broken ‹_› ((fails_ofDocument e).mp h)
  · rintro (h | h | ⟨h, hbroken⟩)
    · rw [load, h]
    · rw [load, h]
    · rw [load_of_load? h]
      exact (fails_ofDocument e).mpr hbroken

end Load

end OperatorHealth.Settings

import OperatorHealth.Proofs.Settings.Rejection

/-!
# Reports on configurations

A configuration that gives no settings is reported: the file is not there or holds no document, or
something is wrong with a field. Only a scalar that stands where a section is expected, or a related
object, is not reported. The reader of documents refuses to ask it for a key, and what it says names
no field.

## Main definitions

* `Settings.TripsOver`: documents with a scalar in the place of a section.
* `Settings.IsAboutField`: errors that say what is wrong with a field.
* `Settings.IsReport`: messages that say what is wrong with a configuration.

## Main results

* `Settings.load_eq_badSubscript_iff`: what is not reported.
* `Settings.load_reported`: what is reported, and what is not.
-/

namespace OperatorHealth.Settings

open Document

variable {release : Option String} {root node d : Document} {field : String} {start : List String}
  {tree : FileTree} {path : String} {e : SettingsError} {rule : Rule}

/-! ### Scalars in the place of sections -/

/-- A scalar is on the way to the end of a path, or stands among the related objects, behind others
that are as they should be. -/
inductive MeetsScalar (root : Document) (path : List String) : Prop
  | onTheWay (hblocks : root.Blocks path)
  | listed {before : List Document} {text : String} {after : List Document}
      (hpath : path = ["related_objects"])
      (hd : root.HoldsAt path (sequence (before ++ scalar text :: after)))
      (hbefore : ∀ x ∈ before, ∃ r, DenotesReference x r)

/-- A scalar stands where a section or a related object is expected, and no rule before that is
broken. -/
def TripsOver (root : Document) : Prop :=
  ∃ before rule after, rules = before ++ rule :: after ∧
    (∀ r ∈ before, ∀ e, ¬ r.IsBroken [] root e) ∧ MeetsScalar root rule.path

/-! ### Errors about fields -/

/-- An error says what is wrong with a field. -/
def IsAboutField : SettingsError → Prop
  | .fileNotFound _ => False
  | .malformedFile _ => False
  | .node _ => False
  | _ => True

/-- Whatever is refused, the reason is about a field. -/
def NamesField (Refuses : String → Document → SettingsError → Prop) : Prop :=
  ∀ field d e, Refuses field d e → IsAboutField e

theorem namesField_text : NamesField RefusesText := by
  rintro field d e ⟨-, rfl⟩
  trivial

theorem namesField_name : NamesField RefusesName := by
  rintro field d e (h | ⟨-, rfl⟩)
  · exact namesField_text _ _ _ h
  · trivial

theorem namesField_number {least : Int} {tooSmall : SettingsError} (h : IsAboutField tooSmall) :
    NamesField (RefusesNumber least tooSmall) := by
  rintro field d e (⟨-, rfl⟩ | ⟨n, -, -, -, rfl⟩)
  · trivial
  · exact h

theorem namesField_level : NamesField RefusesLevel := by
  rintro field d e (h | ⟨text, -, -, rfl⟩)
  · exact namesField_text _ _ _ h
  · trivial

theorem namesField_names : NamesField RefusesNames := by
  rintro field d e (⟨-, rfl⟩ | ⟨items, before, text, after, error, -, -, -, -, rfl⟩) <;> trivial

theorem FirstBroken.isAboutField_or {rules : List Rule} (h : FirstBroken start node rules e)
    (hrules : ∀ rule ∈ rules, NamesField rule.Refuses) :
    IsAboutField e ∨ e = .node .badSubscript ∧ ∃ rule ∈ rules, node.Blocks rule.path := by
  obtain ⟨before, rule, after, rfl, -, hbroken⟩ := h
  have hmem : rule ∈ before ++ rule :: after := List.mem_append_cons_self
  cases hbroken with
  | blocked hblocks => exact .inr ⟨rfl, rule, hmem, hblocks⟩
  | missing => exact .inl trivial
  | refused hd hgiven hrefuses => exact .inl (hrules rule hmem _ _ _ hrefuses)

/-- A related object breaks a rule for a field of it, or is a scalar. -/
theorem isAboutField_or_of_referenceRules (h : FirstBroken start d referenceRules e) :
    IsAboutField e ∨ e = .node .badSubscript ∧ ∃ text, d = scalar text := by
  have hrules : ∀ rule ∈ referenceRules,
      (∃ key, rule.path = [key]) ∧ NamesField rule.Refuses := by
    simp [referenceRules, Rule.may, Rule.must, namesField_text]
  refine (h.isAboutField_or fun rule hrule => (hrules rule hrule).2).imp_right ?_
  rintro ⟨he, rule, hrule, hblocks⟩
  obtain ⟨key, hkey⟩ := (hrules rule hrule).1
  rw [hkey] at hblocks
  cases d with
  | scalar text => exact ⟨he, text, rfl⟩
  | null => exact hblocks.elim
  | sequence items => exact hblocks.elim
  | mapping es =>
    obtain ⟨v, -, hv⟩ := hblocks
    exact absurd hv blocks_nil

theorem RefusesReferences.isAboutField_or (h : RefusesReferences field d e) :
    IsAboutField e ∨ e = .node .badSubscript ∧
      ∃ before text after, d = sequence (before ++ scalar text :: after) ∧
        ∀ x ∈ before, ∃ r, DenotesReference x r := by
  rcases h with ⟨-, rfl⟩ | ⟨before, item, after, rfl, hbefore, hitem⟩
  · exact .inl trivial
  · refine (isAboutField_or_of_referenceRules hitem).imp_right ?_
    rintro ⟨he, text, rfl⟩
    exact ⟨he, before, text, after, rfl, hbefore⟩

/-- Only a related object can be refused for being a scalar. -/
theorem namesField_or_related : ∀ rule ∈ rules,
    rule = .may ["related_objects"] RefusesReferences ∨
      rule.path ≠ ["related_objects"] ∧ NamesField rule.Refuses := by
  have hcapacity : IsAboutField .noCapacity := trivial
  have hinterval : IsAboutField .shortInterval := trivial
  simp [rules, Rule.may, Rule.must, namesField_text, namesField_name, namesField_number,
    namesField_level, namesField_names, hcapacity, hinterval]

theorem Rule.IsBroken.isAboutField_or (hrule : rule ∈ rules) (h : rule.IsBroken [] root e) :
    IsAboutField e ∨ e = .node .badSubscript ∧ MeetsScalar root rule.path := by
  cases h with
  | blocked hblocks => exact .inr ⟨rfl, .onTheWay hblocks⟩
  | missing => exact .inl trivial
  | refused hd hgiven hrefuses =>
    rcases namesField_or_related rule hrule with rfl | ⟨-, hnames⟩
    · refine hrefuses.isAboutField_or.imp_right ?_
      rintro ⟨he, before, text, after, rfl, hbefore⟩
      exact ⟨he, .listed rfl hd hbefore⟩
    · exact .inl (hnames _ _ _ hrefuses)

theorem MeetsScalar.isBroken (hrule : rule ∈ rules) (h : MeetsScalar root rule.path) :
    rule.IsBroken [] root (.node .badSubscript) := by
  cases h with
  | onTheWay hblocks => exact .blocked hblocks
  | listed hpath hd hbefore =>
    rcases namesField_or_related rule hrule with rfl | ⟨hne, -⟩
    · have hscalar {text : String} {start : List String} :
          FirstBroken start (scalar text) referenceRules (.node .badSubscript) :=
        firstBroken_cons_iff.mpr (.inl (.blocked trivial))
      exact .refused hd nofun (.inr ⟨_, _, _, rfl, hbefore, hscalar⟩)
    · exact absurd hpath hne

/-- A document gives no settings for a reason about a field, or trips over a scalar. -/
theorem FirstBroken.isAboutField_or_tripsOver (h : FirstBroken [] root rules e) :
    IsAboutField e ∨ e = .node .badSubscript ∧ TripsOver root := by
  obtain ⟨before, rule, after, hrules, hbefore, hbroken⟩ := h
  have hrule : rule ∈ rules := hrules ▸ List.mem_append_cons_self
  refine (hbroken.isAboutField_or hrule).imp_right ?_
  rintro ⟨he, hmeets⟩
  exact ⟨he, before, rule, after, hrules, hbefore, hmeets⟩

theorem TripsOver.firstBroken (h : TripsOver root) :
    FirstBroken [] root rules (.node .badSubscript) := by
  obtain ⟨before, rule, after, hrules, hbefore, hmeets⟩ := h
  have hrule : rule ∈ rules := hrules ▸ List.mem_append_cons_self
  exact ⟨before, rule, after, hrules, hbefore, hmeets.isBroken hrule⟩

theorem load_eq_badSubscript_iff [DocumentFormat] :
    load release tree path = .error (.node .badSubscript) ↔
    ∃ root, tree.load? path = .ok root ∧ TripsOver root := by
  rw [load_eq_error_iff]
  constructor
  · rintro (- | - | ⟨hroot, hbroken⟩)
    rcases hbroken.isAboutField_or_tripsOver with hfield | ⟨-, htrips⟩
    · exact hfield.elim
    · exact ⟨_, hroot, htrips⟩
  · rintro ⟨root, hroot, htrips⟩
    exact .broken hroot htrips.firstBroken

/-! ### Messages -/

/-- How messages start that say what is wrong with a configuration. -/
def reportHeads (path : String) : List String :=
  ["Config file not found: " ++ path,
    "Config file " ++ path ++ " is not valid YAML: ",
    "Missing required config field: ",
    "Invalid type for config field: ",
    "Invalid value for config field"]

/-- A message says what is wrong with the configuration at the end of a path. A zero character ends
a message. -/
def IsReport (path message : String) : Prop :=
  ∃ head ∈ reportHeads path, (terminated head).toList <+: message.toList

instance (path message : String) : Decidable (IsReport path message) :=
  inferInstanceAs (Decidable (∃ head ∈ reportHeads path,
    (terminated head).toList <+: message.toList))

theorem terminated_prefix_append (head rest : String) :
    (terminated head).toList <+: (terminated (head ++ rest)).toList := by
  rw [toList_terminated, toList_terminated, String.toList_append, List.takeWhile_append]
  split
  · exact (List.takeWhile_prefix _).trans (List.prefix_append _ _)
  · exact List.prefix_rfl

theorem isReport_of_eq_append {head message : String} (rest : String)
    (hhead : head ∈ reportHeads path) (hmessage : message = head ++ rest) :
    IsReport path (terminated message) := by
  rw [hmessage]
  exact ⟨head, hhead, terminated_prefix_append head rest⟩

theorem isReport_of_isAboutField (h : IsAboutField e) : IsReport path e.message := by
  have hmissing : "Missing required config field: " ∈ reportHeads path := by simp [reportHeads]
  have htype : "Invalid type for config field: " ∈ reportHeads path := by simp [reportHeads]
  have hvalue : "Invalid value for config field" ∈ reportHeads path := by simp [reportHeads]
  cases e with
  | missingField field => exact isReport_of_eq_append field hmissing rfl
  | wrongType field => exact isReport_of_eq_append field htype rfl
  | emptyOperatorName =>
    exact isReport_of_eq_append ": cluster_operator.name must not be empty" hvalue rfl
  | noCapacity =>
    exact isReport_of_eq_append ": publisher.queue_capacity must be >= 1" hvalue rfl
  | unknownLogLevel text =>
    refine isReport_of_eq_append (": logging.level \"" ++ text ++ "\"") hvalue ?_
    rw [← String.append_assoc, ← String.append_assoc]
    rfl
  | shortInterval =>
    exact isReport_of_eq_append ": workloads.sync_interval_ms must be >= 100" hvalue rfl
  | badWorkload field error =>
    refine isReport_of_eq_append (" " ++ field ++ ": " ++ error.message) hvalue ?_
    rw [← String.append_assoc, ← String.append_assoc, ← String.append_assoc]
    rfl
  | fileNotFound => exact h.elim
  | malformedFile => exact h.elim
  | node => exact h.elim

/-- All that can be wrong is reported, except for a scalar in the place of a section. -/
theorem Rejects.isReport [DocumentFormat] (h : Rejects tree path e)
    (hne : e ≠ .node .badSubscript) :
    (∀ error, e ≠ .node error) ∧ IsReport path e.message := by
  cases h with
  | notFound =>
    exact ⟨nofun, isReport_of_eq_append "" (List.mem_cons_self ..) String.append_empty.symm⟩
  | malformed =>
    have hhead : "Config file " ++ path ++ " is not valid YAML: " ∈ reportHeads path := by
      simp [reportHeads]
    refine ⟨nofun, isReport_of_eq_append "<yaml>" hhead ?_⟩
    rw [String.append_assoc]
    rfl
  | broken hroot hbroken =>
    rcases hbroken.isAboutField_or_tripsOver with hfield | ⟨he, -⟩
    · refine ⟨?_, isReport_of_isAboutField hfield⟩
      rintro error rfl
      exact hfield
    · exact absurd he hne

open scoped Json

/-- A document with few settings, and something where the publisher has its section. -/
def documentOf (publisher : Document) : Document := record
  [("cluster_operator", record [("name", scalar "network")]),
    ("publisher", publisher),
    ("store", record [("path", scalar "store")]),
    ("workloads", record [("state_file", scalar "snapshot.yaml")])]

/-- The tree with this document in a file. -/
def treeOf (publisher : Document) : FileTree :=
  Json.treeOf "settings.yaml" (documentOf publisher)

theorem load?_treeOf {publisher : Document} (hkeys : (documentOf publisher).hasTextKeys = true) :
    (treeOf publisher).load? "settings.yaml" = .ok (documentOf publisher) :=
  Json.load?_treeOf hkeys rfl rfl

end OperatorHealth.Settings

import OperatorHealth.Proofs.Resource.Entries

/-!
# The grammar of resources

What a document has to look like to stand for a resource, and for which one: a mapping with a name,
in whose status, if it has one, the conditions, versions and references are sequences of mappings
with their texts. Reading accepts these documents and no others, and all that can go wrong is that a
node does not convert: no key is ever asked of a scalar. The entries of keys that are not known make
no difference.

## Main definitions

* `Condition.Denotes`, `OperandVersion.Denotes`, `ObjectReference.Denotes`,
  `ResourceStatus.Denotes`, `ClusterOperator.Denotes`: the documents of a value.
* `ClusterOperator.TextsGiven`: no null stands where a text is expected.
* `ClusterOperator.known`: a document without the entries of unknown keys.

## Main results

* `ClusterOperator.decode_eq_ok_iff`: the documents that are read as a resource.
* `ClusterOperator.onlyConversion_decode`: what can go wrong.
* `ClusterOperator.decode_known`: keys that are not known.
* `ClusterOperator.decode_grammar`: all of this.
-/

namespace OperatorHealth

open Document NodeError

/-! ### Texts of kinds and statuses -/

theorem ConditionKind.ofText?_eq_some_iff {s : String} {k : ConditionKind} :
    ofText? s = some k ↔ s = k.text := by
  constructor
  · intro h
    rw [ofText?, List.find?_eq_some_iff_append, beq_iff_eq] at h
    exact h.1.symm
  · rintro rfl
    exact ofText?_text k

theorem ConditionStatus.ofText?_eq_some_iff {s : String} {status : ConditionStatus} :
    ofText? s = some status ↔ s = status.text := by
  constructor
  · intro h
    rw [ofText?, List.find?_eq_some_iff_append, beq_iff_eq] at h
    exact h.1.symm
  · rintro rfl
    exact ofText?_text status

/-! ### The grammar -/

/-- The mapping has a time that can be read, or leaves out the one that was never set. -/
def Condition.MayHaveTime (t : Instant) (es : List (Document × Document)) : Prop :=
  findEntry "lastTransitionTime" es = none ∧ t = .unset ∨
    ∃ text, HasText "lastTransitionTime" text es ∧ Timestamp.read? text = some t

/-- The documents of a condition. -/
inductive Condition.Denotes : Document → Condition → Prop
  | mapping {es : List (Document × Document)} {kind : ConditionKind} {status : ConditionStatus}
      {reason message : String} {lastTransition : Instant}
      (hkind : HasText "type" kind.text es) (hstatus : HasText "status" status.text es)
      (hreason : MayHaveText "reason" reason es) (hmessage : MayHaveText "message" message es)
      (htime : MayHaveTime lastTransition es) :
      Denotes (mapping es) { kind, status, reason, message, lastTransition }

/-- The documents of a version. -/
inductive OperandVersion.Denotes : Document → OperandVersion → Prop
  | mapping {es : List (Document × Document)} {name version : String}
      (hname : HasText "name" name es) (hversion : HasText "version" version es) :
      Denotes (mapping es) { name, version }

/-- The documents of a reference. -/
inductive ObjectReference.Denotes : Document → ObjectReference → Prop
  | mapping {es : List (Document × Document)} {group resource ns name : String}
      (hgroup : MayHaveText "group" group es) (hresource : HasText "resource" resource es)
      (hns : MayHaveText "namespace" ns es) (hname : HasText "name" name es) :
      Denotes (mapping es) { group, resource, ns, name }

/-- The documents of a status. -/
inductive ResourceStatus.Denotes : Document → ResourceStatus → Prop
  | mapping {es : List (Document × Document)} {conditions : List Condition}
      {versions : List OperandVersion} {relatedObjects : List ObjectReference}
      (hconditions : MayHaveItems "conditions" Condition.Denotes conditions es)
      (hversions : MayHaveItems "versions" OperandVersion.Denotes versions es)
      (hrelated : MayHaveItems "relatedObjects" ObjectReference.Denotes relatedObjects es) :
      Denotes (mapping es) { conditions, versions, relatedObjects }

/-- The documents of a resource, with an empty status where it is left out. -/
inductive ClusterOperator.Denotes : Document → ClusterOperator → Prop
  | withStatus {es : List (Document × Document)} {name : String} {d : Document}
      {st : ResourceStatus} (hname : HasText "name" name es)
      (hfield : findEntry "status" es = some d)
      (hstatus : ResourceStatus.Denotes d st) :
      Denotes (mapping es) { name, status := st }
  | withoutStatus {es : List (Document × Document)} {name : String}
      (hname : HasText "name" name es) (hfield : findEntry "status" es = none) :
      Denotes (mapping es) { name }

/-! ### Documents without nulls for texts -/

namespace Condition

/-- The keys of the texts in a condition. -/
def keys : List String := ["type", "status", "reason", "message", "lastTransitionTime"]

theorem decodeTime_eq_ok_iff {es : List (Document × Document)} {t : Instant}
    (h : (mapping es).TextsGiven keys) :
    decodeTime (mapping es) = .ok t ↔ MayHaveTime t es := by
  have hgiven : ∀ v, findEntry "lastTransitionTime" es = some v → v.isNull = false :=
    h _ (by decide)
  rw [decodeTime, MayHaveTime, field?, Except.bind_eq_ok]
  simp only [HasText]
  cases hv : findEntry "lastTransitionTime" es with
  | none => simp [eq_comm]
  | some v => simp [Except.bind_eq_ok, text_eq_ok_iff (hgiven v hv), NodeError.orConversion_eq_ok]

theorem decode_eq_ok_iff {d : Document} {c : Condition} (h : d.TextsGiven keys) :
    decode d = .ok c ↔ Denotes d c := by
  constructor
  · intro hread
    obtain ⟨es, rfl, hread⟩ := exists_mapping_of_eq_ok hread
    simp only [Except.bind_eq_ok, Except.pure_eq_ok, NodeError.orConversion_eq_ok,
      ConditionKind.ofText?_eq_some_iff, ConditionStatus.ofText?_eq_some_iff] at hread
    obtain ⟨_, hkind, kind, rfl, _, hstatus, status, rfl, reason, hreason, message, hmessage, t,
      htime, rfl⟩ := hread
    exact .mapping ((requiredText_eq_ok_iff h (by decide)).mp hkind)
      ((requiredText_eq_ok_iff h (by decide)).mp hstatus)
      ((optionalText_eq_ok_iff h (by decide)).mp hreason)
      ((optionalText_eq_ok_iff h (by decide)).mp hmessage) ((decodeTime_eq_ok_iff h).mp htime)
  · rintro ⟨hkind, hstatus, hreason, hmessage, htime⟩
    rw [decode, requireMapping_bind]
    simp only [Except.bind_eq_ok, Except.pure_eq_ok, NodeError.orConversion_eq_ok,
      ConditionKind.ofText?_eq_some_iff, ConditionStatus.ofText?_eq_some_iff]
    exact ⟨_, (requiredText_eq_ok_iff h (by decide)).mpr hkind, _, rfl,
      _, (requiredText_eq_ok_iff h (by decide)).mpr hstatus, _, rfl,
      _, (optionalText_eq_ok_iff h (by decide)).mpr hreason,
      _, (optionalText_eq_ok_iff h (by decide)).mpr hmessage,
      _, (decodeTime_eq_ok_iff h).mpr htime, rfl⟩

end Condition

namespace OperandVersion

/-- The keys of the texts in a version. -/
def keys : List String := ["name", "version"]

theorem decode_eq_ok_iff {d : Document} {v : OperandVersion} (h : d.TextsGiven keys) :
    decode d = .ok v ↔ Denotes d v := by
  constructor
  · intro hread
    obtain ⟨es, rfl, hread⟩ := exists_mapping_of_eq_ok hread
    simp only [Except.bind_eq_ok, Except.pure_eq_ok] at hread
    obtain ⟨name, hname, version, hversion, rfl⟩ := hread
    exact .mapping ((requiredText_eq_ok_iff h (by decide)).mp hname)
      ((requiredText_eq_ok_iff h (by decide)).mp hversion)
  · rintro ⟨hname, hversion⟩
    rw [decode, requireMapping_bind]
    simp only [Except.bind_eq_ok, Except.pure_eq_ok]
    exact ⟨_, (requiredText_eq_ok_iff h (by decide)).mpr hname,
      _, (requiredText_eq_ok_iff h (by decide)).mpr hversion, rfl⟩

end OperandVersion

namespace ObjectReference

/-- The keys of the texts in a reference. -/
def keys : List String := ["group", "resource", "namespace", "name"]

theorem decode_eq_ok_iff {d : Document} {r : ObjectReference} (h : d.TextsGiven keys) :
    decode d = .ok r ↔ Denotes d r := by
  constructor
  · intro hread
    obtain ⟨es, rfl, hread⟩ := exists_mapping_of_eq_ok hread
    simp only [Except.bind_eq_ok, Except.pure_eq_ok] at hread
    obtain ⟨group, hgroup, resource, hresource, ns, hns, name, hname, rfl⟩ := hread
    exact .mapping ((optionalText_eq_ok_iff h (by decide)).mp hgroup)
      ((requiredText_eq_ok_iff h (by decide)).mp hresource)
      ((optionalText_eq_ok_iff h (by decide)).mp hns)
      ((requiredText_eq_ok_iff h (by decide)).mp hname)
  · rintro ⟨hgroup, hresource, hns, hname⟩
    rw [decode, requireMapping_bind]
    simp only [Except.bind_eq_ok, Except.pure_eq_ok]
    exact ⟨_, (optionalText_eq_ok_iff h (by decide)).mpr hgroup,
      _, (requiredText_eq_ok_iff h (by decide)).mpr hresource,
      _, (optionalText_eq_ok_iff h (by decide)).mpr hns,
      _, (requiredText_eq_ok_iff h (by decide)).mpr hname, rfl⟩

end ObjectReference

namespace ResourceStatus

/-- In the document of a status, no null stands where a text is expected. -/
structure TextsGiven (d : Document) : Prop where
  conditions : ∀ v ∈ d.valueAt? "conditions", ∀ item ∈ v.items, item.TextsGiven Condition.keys
  versions : ∀ v ∈ d.valueAt? "versions", ∀ item ∈ v.items, item.TextsGiven OperandVersion.keys
  related : ∀ v ∈ d.valueAt? "relatedObjects", ∀ item ∈ v.items,
    item.TextsGiven ObjectReference.keys

instance (d : Document) : Decidable (TextsGiven d) :=
  decidable_of_iff
    ((∀ v ∈ d.valueAt? "conditions", ∀ item ∈ v.items, item.TextsGiven Condition.keys) ∧
      (∀ v ∈ d.valueAt? "versions", ∀ item ∈ v.items, item.TextsGiven OperandVersion.keys) ∧
      ∀ v ∈ d.valueAt? "relatedObjects", ∀ item ∈ v.items, item.TextsGiven ObjectReference.keys)
    ⟨fun h => ⟨h.1, h.2.1, h.2.2⟩, fun h => ⟨h.conditions, h.versions, h.related⟩⟩

namespace TextsGiven

variable {es : List (Document × Document)}

theorem conditions_eq_ok_iff (h : TextsGiven (mapping es)) {cs : List Condition} :
    (mapping es).optionalList "conditions" Condition.decode = .ok cs ↔
      MayHaveItems "conditions" Condition.Denotes cs es :=
  optionalList_eq_ok_iff fun v hv item hitem _ =>
    Condition.decode_eq_ok_iff (h.conditions v hv item hitem)

theorem versions_eq_ok_iff (h : TextsGiven (mapping es)) {vs : List OperandVersion} :
    (mapping es).optionalList "versions" OperandVersion.decode = .ok vs ↔
      MayHaveItems "versions" OperandVersion.Denotes vs es :=
  optionalList_eq_ok_iff fun v hv item hitem _ =>
    OperandVersion.decode_eq_ok_iff (h.versions v hv item hitem)

theorem related_eq_ok_iff (h : TextsGiven (mapping es)) {rs : List ObjectReference} :
    (mapping es).optionalList "relatedObjects" ObjectReference.decode = .ok rs ↔
      MayHaveItems "relatedObjects" ObjectReference.Denotes rs es :=
  optionalList_eq_ok_iff fun v hv item hitem _ =>
    ObjectReference.decode_eq_ok_iff (h.related v hv item hitem)

end TextsGiven

theorem decode_eq_ok_iff {d : Document} {st : ResourceStatus} (h : TextsGiven d) :
    decode d = .ok st ↔ Denotes d st := by
  constructor
  · intro hread
    obtain ⟨es, rfl, hread⟩ := exists_mapping_of_eq_ok hread
    simp only [Except.bind_eq_ok, Except.pure_eq_ok] at hread
    obtain ⟨cs, hcs, vs, hvs, rs, hrs, rfl⟩ := hread
    exact .mapping (h.conditions_eq_ok_iff.mp hcs) (h.versions_eq_ok_iff.mp hvs)
      (h.related_eq_ok_iff.mp hrs)
  · rintro ⟨hcs, hvs, hrs⟩
    rw [decode, requireMapping_bind]
    simp only [Except.bind_eq_ok, Except.pure_eq_ok]
    exact ⟨_, h.conditions_eq_ok_iff.mpr hcs, _, h.versions_eq_ok_iff.mpr hvs,
      _, h.related_eq_ok_iff.mpr hrs, rfl⟩

end ResourceStatus

namespace ClusterOperator

/-- In the document of a resource, no null stands where a text is expected. -/
structure TextsGiven (d : Document) : Prop where
  name : d.TextsGiven ["name"]
  status : ∀ v ∈ d.valueAt? "status", ResourceStatus.TextsGiven v

instance (d : Document) : Decidable (TextsGiven d) :=
  decidable_of_iff
    (d.TextsGiven ["name"] ∧ ∀ v ∈ d.valueAt? "status", ResourceStatus.TextsGiven v)
    ⟨fun h => ⟨h.1, h.2⟩, fun h => ⟨h.name, h.status⟩⟩

/-- **The documents that are read as a resource.** -/
theorem decode_eq_ok_iff {d : Document} {r : ClusterOperator} (h : TextsGiven d) :
    decode d = .ok r ↔ Denotes d r := by
  constructor
  · intro hread
    obtain ⟨es, rfl, hread⟩ := exists_mapping_of_eq_ok hread
    have hstatus : ∀ v, findEntry "status" es = some v → ResourceStatus.TextsGiven v := h.status
    obtain ⟨name, hname, hread⟩ := Except.bind_eq_ok.mp hread
    have hname := (requiredText_eq_ok_iff h.name (List.mem_singleton_self _)).mp hname
    obtain ⟨field, hfield, hread⟩ := Except.bind_eq_ok.mp hread
    have hfield : findEntry "status" es = field := Except.ok.inj hfield
    cases field with
    | none =>
      cases hread
      exact .withoutStatus hname hfield
    | some v =>
      obtain ⟨st, hst, hread⟩ := Except.bind_eq_ok.mp hread
      cases hread
      exact .withStatus hname hfield
        ((ResourceStatus.decode_eq_ok_iff (hstatus v hfield)).mp hst)
  · intro hdenotes
    cases hdenotes with
    | @withStatus es name v st hname hfield hst =>
      have hname := (requiredText_eq_ok_iff h.name (List.mem_singleton_self _)).mpr hname
      have hst := (ResourceStatus.decode_eq_ok_iff (h.status v hfield)).mpr hst
      rw [decode, requireMapping_bind]
      refine Except.bind_eq_ok.mpr ⟨name, hname, Except.bind_eq_ok.mpr ⟨v, ?_, ?_⟩⟩
      · rw [field?, hfield]
      · exact Except.bind_eq_ok.mpr ⟨st, hst, rfl⟩
    | @withoutStatus es name hname hfield =>
      have hname := (requiredText_eq_ok_iff h.name (List.mem_singleton_self _)).mpr hname
      rw [decode, requireMapping_bind]
      refine Except.bind_eq_ok.mpr ⟨name, hname, Except.bind_eq_ok.mpr ⟨none, ?_, rfl⟩⟩
      rw [field?, hfield]

end ClusterOperator

/-! ### What can go wrong -/

theorem Condition.onlyConversion_decodeTime (es : List (Document × Document)) :
    OnlyConversion (decodeTime (mapping es)) := by
  refine (onlyConversion_field? _ es).bind fun field => ?_
  cases field with
  | none => exact onlyConversion_ok _
  | some v => exact (onlyConversion_text v).bind fun _ => onlyConversion_orConversion _

theorem Condition.onlyConversion_decode (d : Document) : OnlyConversion (decode d) := by
  refine onlyConversion_requireMapping ?_
  rintro es rfl
  refine (onlyConversion_requiredText _ es).bind fun _ => ?_
  refine (onlyConversion_orConversion _).bind fun _ => ?_
  refine (onlyConversion_requiredText _ es).bind fun _ => ?_
  refine (onlyConversion_orConversion _).bind fun _ => ?_
  refine (onlyConversion_optionalText _ es).bind fun _ => ?_
  refine (onlyConversion_optionalText _ es).bind fun _ => ?_
  exact (onlyConversion_decodeTime es).bind fun _ => onlyConversion_ok _

theorem OperandVersion.onlyConversion_decode (d : Document) : OnlyConversion (decode d) := by
  refine onlyConversion_requireMapping ?_
  rintro es rfl
  refine (onlyConversion_requiredText _ es).bind fun _ => ?_
  exact (onlyConversion_requiredText _ es).bind fun _ => onlyConversion_ok _

theorem ObjectReference.onlyConversion_decode (d : Document) : OnlyConversion (decode d) := by
  refine onlyConversion_requireMapping ?_
  rintro es rfl
  refine (onlyConversion_optionalText _ es).bind fun _ => ?_
  refine (onlyConversion_requiredText _ es).bind fun _ => ?_
  refine (onlyConversion_optionalText _ es).bind fun _ => ?_
  exact (onlyConversion_requiredText _ es).bind fun _ => onlyConversion_ok _

theorem ResourceStatus.onlyConversion_decode (d : Document) : OnlyConversion (decode d) := by
  refine onlyConversion_requireMapping ?_
  rintro es rfl
  refine (onlyConversion_optionalList _ es Condition.onlyConversion_decode).bind fun _ => ?_
  refine (onlyConversion_optionalList _ es OperandVersion.onlyConversion_decode).bind fun _ => ?_
  exact (onlyConversion_optionalList _ es ObjectReference.onlyConversion_decode).bind
    fun _ => onlyConversion_ok _

theorem ClusterOperator.onlyConversion_decode (d : Document) : OnlyConversion (decode d) := by
  refine onlyConversion_requireMapping ?_
  rintro es rfl
  refine (onlyConversion_requiredText _ es).bind fun _ => ?_
  refine (onlyConversion_field? _ es).bind fun field => ?_
  cases field with
  | none => exact onlyConversion_ok _
  | some v => exact (ResourceStatus.onlyConversion_decode v).bind fun _ => onlyConversion_ok _

/-! ### Keys that are not known -/

namespace Condition

/-- The document of a condition without the entries of unknown keys. -/
def known : Document → Document := restrict keys

theorem decode_known (d : Document) : decode (known d) = decode d := by
  have hmapping : (known d).requireMapping = d.requireMapping := requireMapping_trim d
  have htime : decodeTime (known d) = decodeTime d := by
    rw [decodeTime, decodeTime, known, field?_restrict d (by decide)]
  rw [decode, decode, hmapping, htime]
  simp (disch := decide) only [known, requiredText_restrict, optionalText_restrict]

end Condition

namespace OperandVersion

/-- The document of a version without the entries of unknown keys. -/
def known : Document → Document := restrict keys

theorem decode_known (d : Document) : decode (known d) = decode d := by
  have hmapping : (known d).requireMapping = d.requireMapping := requireMapping_trim d
  rw [decode, decode, hmapping]
  simp (disch := decide) only [known, requiredText_restrict]

end OperandVersion

namespace ObjectReference

/-- The document of a reference without the entries of unknown keys. -/
def known : Document → Document := restrict keys

theorem decode_known (d : Document) : decode (known d) = decode d := by
  have hmapping : (known d).requireMapping = d.requireMapping := requireMapping_trim d
  rw [decode, decode, hmapping]
  simp (disch := decide) only [known, requiredText_restrict, optionalText_restrict]

end ObjectReference

namespace ResourceStatus

/-- The document of a status without the entries of unknown keys, also in its items. -/
def known : Document → Document :=
  trim [("conditions", mapItems Condition.known), ("versions", mapItems OperandVersion.known),
    ("relatedObjects", mapItems ObjectReference.known)]

theorem decode_known (d : Document) : decode (known d) = decode d := by
  have hconditions : (known d).optionalList "conditions" Condition.decode =
      d.optionalList "conditions" Condition.decode := optionalList_trim d rfl Condition.decode_known
  have hversions : (known d).optionalList "versions" OperandVersion.decode =
      d.optionalList "versions" OperandVersion.decode :=
    optionalList_trim d rfl OperandVersion.decode_known
  have hrelated : (known d).optionalList "relatedObjects" ObjectReference.decode =
      d.optionalList "relatedObjects" ObjectReference.decode :=
    optionalList_trim d rfl ObjectReference.decode_known
  have hmapping : (known d).requireMapping = d.requireMapping := requireMapping_trim d
  rw [decode, decode, hmapping, hconditions, hversions, hrelated]

end ResourceStatus

namespace ClusterOperator

/-- The document of a resource without the entries of unknown keys, also in its status. -/
def known : Document → Document := trim [("name", id), ("status", ResourceStatus.known)]

/-- **The entries of unknown keys make no difference.** -/
theorem decode_known (d : Document) : decode (known d) = decode d := by
  have hmapping : (known d).requireMapping = d.requireMapping := requireMapping_trim d
  have hname : (known d).requiredText "name" = d.requiredText "name" := requiredText_trim d rfl
  have hstatus : (known d).field? "status" =
      (d.field? "status").map (Option.map ResourceStatus.known) := field?_trim d rfl
  rw [decode, decode, hmapping, hname, hstatus]
  cases d.field? "status" with
  | error e => rfl
  | ok field =>
    cases field with
    | none => rfl
    | some v => simp [Except.map, bind, Except.bind, ResourceStatus.decode_known]

/-- **Reading accepts its grammar.** All that can go wrong is that a node does not convert; a
document without nulls for texts is read as the resource it stands for and as no other, and is
refused if it stands for none; and the entries of unknown keys make no difference. -/
theorem decode_grammar (d : Document) :
    (∀ e, decode d = .error e → e = .badConversion) ∧
    (TextsGiven d → ∀ r, decode d = .ok r ↔ Denotes d r) ∧ decode (known d) = decode d :=
  ⟨onlyConversion_decode d, fun h _ => decode_eq_ok_iff h, decode_known d⟩

/-- A document written by hand, with its keys in no order and without most of what may be left out.
One key is not known in the resource, the status, the condition and the version each, and stands for
nothing in three of them. -/
theorem decode_grammar_handwritten :
    let condition : Document := .record
      [("status", .scalar "True"), ("since", .null), ("type", .scalar "Degraded")]
    let version : Document := .record
      [("version", .scalar "4.2"), ("phase", .sequence []), ("name", .scalar "operator")]
    let reference : Document := .record
      [("name", .scalar "dns"), ("namespace", .scalar "kube"), ("resource", .scalar "pods")]
    let status : Document := .record
      [("relatedObjects", .sequence [reference]), ("extension", .null),
        ("versions", .sequence [version]), ("conditions", .sequence [condition])]
    let d : Document := .record
      [("status", status), ("metadata", .null), ("name", .scalar "network")]
    let r : ClusterOperator :=
      ⟨"network", ⟨[⟨.degraded, .true, "", "", .unset⟩], [⟨"operator", "4.2"⟩],
        [⟨"", "pods", "kube", "dns"⟩]⟩⟩
    TextsGiven d ∧ Denotes d r ∧ decode (known d) = .ok r := by
  intro condition version reference status d r
  have hgiven : TextsGiven d := by decide +kernel
  have hread : decode d = .ok r := by decide +kernel
  obtain ⟨-, hgrammar, hknown⟩ := decode_grammar d
  exact ⟨hgiven, (hgrammar hgiven r).mp hread, hknown.trans hread⟩

end ClusterOperator

end OperatorHealth

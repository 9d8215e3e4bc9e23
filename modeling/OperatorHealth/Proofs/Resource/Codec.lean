import OperatorHealth.Proofs.Document.Record
import OperatorHealth.Proofs.Publication.Reflection
import OperatorHealth.Proofs.Time.Timestamp
import OperatorHealth.Resource.Codec

/-!
# Resources are read back from their documents

The document of a resource stands for that resource, but for the parts of a second in its times,
which are not written. What is left out of a document because it is empty is empty when it is read.

## Main results

* `ClusterOperator.hasTextKeys_encode`: the keys in the document of a resource.
* `Condition.decode_encode`, `OperandVersion.decode_encode`, `ObjectReference.decode_encode`: the
  parts.
* `ResourceStatus.decode_encode`, `ClusterOperator.decode_encode`: a status and a resource.
-/

namespace OperatorHealth

open Document

/-! ### Texts of kinds and statuses -/

theorem ConditionKind.ofText?_text (k : ConditionKind) : ofText? k.text = some k := by
  cases k <;> decide

theorem ConditionStatus.ofText?_text (s : ConditionStatus) : ofText? s.text = some s := by
  cases s <;> decide

/-! ### Entries of a mapping -/

namespace Document

variable {key text : String} {fields : List (String × Document)}

theorem requiredText_record (h : fields.lookup key = some (scalar text)) :
    (record fields).requiredText key = .ok text := by
  simp [requiredText, field?_record, h, bind, Except.bind, Document.text]

/-- An entry that is left out if it is empty is read as its text. -/
theorem optionalText_record
    (h : fields.lookup key = if text = "" then none else some (scalar text)) :
    (record fields).optionalText key = .ok text := by
  by_cases htext : text = "" <;>
    simp [optionalText, field?_record, h, htext, bind, Except.bind, Document.text]

theorem optionalList_record {α : Type} {convert : Document → Except NodeError α}
    {items : List Document} (h : fields.lookup key = some (sequence items)) :
    (record fields).optionalList key convert = items.mapM convert := by
  simp [optionalList, field?_record, h, bind, Except.bind, list]

theorem mapM_map_eq_ok {α β : Type} {encode : α → Document}
    {decode : Document → Except NodeError β} {f : α → β}
    (h : ∀ a, decode (encode a) = .ok (f a)) (as : List α) :
    (as.map encode).mapM decode = .ok (as.map f) := by
  induction as with
  | nil => rfl
  | cons a as ih => simp [h, ih, bind, Except.bind, pure, Except.pure]

end Document

/-! ### Keys -/

theorem all_optionalEntry (key text : String) :
    (optionalEntry key text).all (fun f => f.2.hasTextKeys) = true := by
  unfold optionalEntry
  split <;> rfl

theorem Condition.hasTextKeys_encode (c : Condition) : c.encode.hasTextKeys = true := by
  simp [encode, all_optionalEntry, -List.all_eq_true]

theorem OperandVersion.hasTextKeys_encode (v : OperandVersion) : v.encode.hasTextKeys = true := rfl

theorem ObjectReference.hasTextKeys_encode (r : ObjectReference) : r.encode.hasTextKeys = true := by
  simp [encode, all_optionalEntry, -List.all_eq_true]

/-- The keys in the document of a resource are texts. -/
theorem ClusterOperator.hasTextKeys_encode (r : ClusterOperator) :
    r.encode.hasTextKeys = true := by
  simp [encode, ResourceStatus.encode, Condition.hasTextKeys_encode,
    OperandVersion.hasTextKeys_encode, ObjectReference.hasTextKeys_encode]

/-! ### Parts of a status -/

/-- A condition is read back without the part of a second in its time. -/
theorem Condition.decode_encode (c : Condition) :
    Condition.decode c.encode = .ok { c with lastTransition := c.lastTransition.truncate } := by
  have hkind : c.encode.requiredText "type" = .ok c.kind.text :=
    requiredText_record (by simp)
  have hstatus : c.encode.requiredText "status" = .ok c.status.text :=
    requiredText_record (by simp [List.lookup_cons])
  have hreason : c.encode.optionalText "reason" = .ok c.reason := by
    refine optionalText_record ?_
    by_cases hreason : c.reason = "" <;> by_cases hmessage : c.message = "" <;>
      simp [List.lookup_cons, optionalEntry, hreason, hmessage]
  have hmessage : c.encode.optionalText "message" = .ok c.message := by
    refine optionalText_record ?_
    by_cases hreason : c.reason = "" <;> by_cases hmessage : c.message = "" <;>
      simp [List.lookup_cons, optionalEntry, hreason, hmessage]
  have htime : decodeTime c.encode = .ok c.lastTransition.truncate := by
    simp [decodeTime, encode, field?_record, List.lookup_cons, bind, Except.bind, Document.text,
      Timestamp.read?_write, NodeError.orConversion]
  have hmapping : c.encode.requireMapping = .ok () := rfl
  simp [decode, hmapping, hkind, hstatus, hreason, hmessage, htime, bind, Except.bind, pure,
    Except.pure, ConditionKind.ofText?_text, ConditionStatus.ofText?_text, NodeError.orConversion]

theorem OperandVersion.decode_encode (v : OperandVersion) :
    OperandVersion.decode v.encode = .ok v := rfl

theorem ObjectReference.decode_encode (r : ObjectReference) :
    ObjectReference.decode r.encode = .ok r := by
  have hgroup : r.encode.optionalText "group" = .ok r.group := by
    simp [encode, optionalText, field?_record, bind, Except.bind, Document.text]
  have hresource : r.encode.requiredText "resource" = .ok r.resource :=
    requiredText_record (by simp [List.lookup_cons])
  have hns : r.encode.optionalText "namespace" = .ok r.ns := by
    refine optionalText_record ?_
    by_cases hns : r.ns = "" <;> simp [List.lookup_cons, optionalEntry, hns]
  have hname : r.encode.requiredText "name" = .ok r.name := by
    refine requiredText_record ?_
    by_cases hns : r.ns = "" <;> simp [List.lookup_cons, optionalEntry, hns]
  have hmapping : r.encode.requireMapping = .ok () := rfl
  simp [decode, hmapping, hgroup, hresource, hns, hname, bind, Except.bind, pure, Except.pure]

/-! ### Statuses and resources -/

theorem ResourceStatus.decode_encode (st : ResourceStatus) :
    ResourceStatus.decode st.encode = .ok (st.mapTimes Instant.truncate) := by
  have hconditions : st.encode.optionalList "conditions" Condition.decode =
      .ok (st.mapTimes Instant.truncate).conditions :=
    (optionalList_record rfl).trans (mapM_map_eq_ok Condition.decode_encode _)
  have hversions : st.encode.optionalList "versions" OperandVersion.decode = .ok st.versions := by
    refine (optionalList_record rfl).trans ?_
    simpa using mapM_map_eq_ok OperandVersion.decode_encode st.versions
  have hrelated : st.encode.optionalList "relatedObjects" ObjectReference.decode =
      .ok st.relatedObjects := by
    refine (optionalList_record rfl).trans ?_
    simpa using mapM_map_eq_ok ObjectReference.decode_encode st.relatedObjects
  have hmapping : st.encode.requireMapping = .ok () := rfl
  simp [decode, hmapping, hconditions, hversions, hrelated, bind, Except.bind, pure, Except.pure,
    mapTimes]

/-- **A resource is read back**, but for the parts of a second in its times. -/
theorem ClusterOperator.decode_encode (r : ClusterOperator) : ClusterOperator.decode r.encode =
    .ok { r with status := r.status.mapTimes Instant.truncate } := by
  have hname : r.encode.requiredText "name" = .ok r.name := requiredText_record rfl
  have hstatus : r.encode.field? "status" = .ok (some r.status.encode) := rfl
  have hmapping : r.encode.requireMapping = .ok () := rfl
  simp [decode, hmapping, hname, hstatus, ResourceStatus.decode_encode, bind, Except.bind, pure,
    Except.pure]

end OperatorHealth

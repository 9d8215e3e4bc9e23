import OperatorHealth.Proofs.Document.Conversion
import OperatorHealth.Proofs.Resource.Codec

/-!
# Documents that are read, written and read again

Writing a value and reading it back gives the value with its times to the second. A document may
say the same in many ways: with keys in another order, with keys that are not known, with an empty
text given or left out, with a time that is cut short. Once it has been read, all of that is gone,
and the value that was read is read again from its own document. The one thing that may stand in
the way is a time too far from 1970 to be an instant, for it wraps around.

## Main definitions

* `Timestamp.Fits`: a text that does not name a time out of the range of instants.
* `Condition.TimeFits`, `ClusterOperator.TimesFit`: documents without such times.
* `RoundTrips`: values are read back from their documents, and documents can be written again.

## Main results

* `Instant.toInt_nanos_truncate`: what is left of a time.
* `codecs_roundTrip`: conditions, versions, references and resources.
-/

namespace OperatorHealth

/-! ### Times to the second -/

namespace Instant

/-- Dropping the part of a second rounds toward zero and never wraps around. -/
theorem toInt_nanos_truncate (t : Instant) :
    t.truncate.nanos.toInt = t.nanos.toInt.tdiv nanosPerSecond * nanosPerSecond := by
  have hlow := t.nanos.le_toInt
  have hhigh := t.nanos.toInt_lt
  have hsign : Int.sign 1000000000 = 1 := rfl
  refine Int64.toInt_ofInt_of_le ?_ ?_ <;>
    simp only [seconds, nanosPerSecond, Int.tdiv_eq_ediv, hsign] <;> split <;> omega

/-- An instant on a full second has no part of a second to drop. -/
theorem truncate_ofSeconds {s : Int} (hlow : Int64.minValue.toInt ≤ s * nanosPerSecond)
    (hhigh : s * nanosPerSecond ≤ Int64.maxValue.toInt) : (ofSeconds s).truncate = ofSeconds s := by
  have hnanos : (ofSeconds s).nanos.toInt = s * nanosPerSecond :=
    Int64.toInt_ofInt_of_le hlow (by have : Int64.maxValue.toInt = 2 ^ 63 - 1 := rfl; omega)
  have hseconds : (ofSeconds s).seconds = s := by
    rw [seconds, hnanos, Int.mul_tdiv_cancel _ (by decide)]
  rw [truncate, hseconds]

end Instant

namespace Timestamp

/-- A text does not name a time whose nanoseconds are more than a word can hold. -/
def Fits (text : String) : Prop :=
  ∀ f ∈ fields? text, Int64.minValue.toInt ≤ f.seconds * Instant.nanosPerSecond ∧
    f.seconds * Instant.nanosPerSecond ≤ Int64.maxValue.toInt

instance (text : String) : Decidable (Fits text) :=
  inferInstanceAs (Decidable (∀ f ∈ fields? text, _))

theorem Fits.truncate_eq {text : String} {t : Instant} (hfits : Fits text)
    (hread : read? text = some t) : t.truncate = t := by
  obtain ⟨f, hf, rfl⟩ := Option.map_eq_some_iff.mp hread
  obtain ⟨hlow, hhigh⟩ := hfits f hf
  exact Instant.truncate_ofSeconds hlow hhigh

end Timestamp

/-! ### Documents without times out of range -/

namespace Document

/-- The entry of a key, if the node can be asked for it and has it. -/
def valueAt? (key : String) (d : Document) : Option Document := (d.field? key).toOption.join

/-- The items of a sequence, none in another node. -/
def items : Document → List Document
  | sequence items => items
  | _ => []

theorem valueAt?_eq {key : String} {d : Document} {o : Option Document} (h : d.field? key = .ok o) :
    d.valueAt? key = o := by
  rw [valueAt?, h]
  rfl

end Document

open Document

/-- The document of a condition has no time out of range. -/
def Condition.TimeFits (d : Document) : Prop :=
  ∀ v ∈ d.valueAt? "lastTransitionTime", ∀ text ∈ v.text.toOption, Timestamp.Fits text

instance (d : Document) : Decidable (Condition.TimeFits d) :=
  inferInstanceAs (Decidable (∀ v ∈ d.valueAt? "lastTransitionTime", ∀ text ∈ v.text.toOption, _))

/-- None of the conditions in the document of a status has a time out of range. -/
def ResourceStatus.TimesFit (d : Document) : Prop :=
  ∀ v ∈ d.valueAt? "conditions", ∀ item ∈ v.items, Condition.TimeFits item

instance (d : Document) : Decidable (ResourceStatus.TimesFit d) :=
  inferInstanceAs (Decidable (∀ v ∈ d.valueAt? "conditions", ∀ item ∈ v.items, _))

/-- None of the conditions in the document of a resource has a time out of range. -/
def ClusterOperator.TimesFit (d : Document) : Prop :=
  ∀ v ∈ d.valueAt? "status", ResourceStatus.TimesFit v

instance (d : Document) : Decidable (ClusterOperator.TimesFit d) :=
  inferInstanceAs (Decidable (∀ v ∈ d.valueAt? "status", _))

/-! ### Values that were read -/

theorem NodeError.orConversion_eq_ok {α : Type} {o : Option α} {a : α} :
    NodeError.orConversion o = .ok a ↔ o = some a := by
  cases o <;> simp [NodeError.orConversion]

/-- A time that was read is in full seconds. -/
theorem Condition.truncate_of_decodeTime {d : Document} {t : Instant} (hfits : TimeFits d)
    (h : decodeTime d = .ok t) : t.truncate = t := by
  obtain ⟨field, hfield, h⟩ := Except.bind_eq_ok.mp h
  cases field with
  | none =>
    cases h
    rfl
  | some v =>
    obtain ⟨text, htext, hread⟩ := Except.bind_eq_ok.mp h
    have hmem : text ∈ v.text.toOption := by rw [htext]; rfl
    exact (hfits v (valueAt?_eq hfield) text hmem).truncate_eq
      (NodeError.orConversion_eq_ok.mp hread)

theorem Condition.truncate_of_decode {d : Document} {c : Condition} (hfits : TimeFits d)
    (h : decode d = .ok c) : c.lastTransition.truncate = c.lastTransition := by
  simp only [decode, Except.bind_eq_ok, Except.pure_eq_ok] at h
  obtain ⟨-, -, -, -, -, -, -, -, -, -, -, -, -, -, t, htime, rfl⟩ := h
  exact truncate_of_decodeTime hfits htime

/-- The times of a status that was read are in full seconds. -/
theorem ResourceStatus.mapTimes_of_decode {d : Document} {st : ResourceStatus}
    (hfits : TimesFit d) (h : decode d = .ok st) : st.mapTimes Instant.truncate = st := by
  simp only [decode, optionalList, Except.bind_eq_ok, Except.pure_eq_ok] at h
  obtain ⟨-, -, conditions, ⟨field, hfield, hlist⟩, versions, -, relatedObjects, -, rfl⟩ := h
  suffices conditions.map (fun c => { c with lastTransition := c.lastTransition.truncate }) =
      conditions by simp only [mapTimes, this]
  cases field with
  | none =>
    cases hlist
    rfl
  | some v =>
    cases v with
    | sequence items =>
      have hitems : ∀ item ∈ items, Condition.TimeFits item := hfits _ (valueAt?_eq hfield)
      -- Each condition stands for the item at its place, and so does its time.
      have hplaces : List.Forall₂ (fun item c => Condition.decode item = .ok c) items conditions :=
        Document.mapM_eq_ok.mp hlist
      clear hfield hlist
      induction hplaces with
      | nil => rfl
      | cons hitem _ ih =>
        rw [List.forall_mem_cons] at hitems
        rw [List.map_cons, Condition.truncate_of_decode hitems.1 hitem, ih hitems.2]
    | null => cases hlist
    | scalar text => cases hlist
    | mapping entries => cases hlist

theorem ClusterOperator.mapTimes_of_decode {d : Document} {r : ClusterOperator}
    (hfits : TimesFit d) (h : decode d = .ok r) :
    r.status.mapTimes Instant.truncate = r.status := by
  simp only [decode, Except.bind_eq_ok] at h
  obtain ⟨-, -, name, -, field, hfield, h⟩ := h
  cases field with
  | none =>
    cases h
    rfl
  | some status =>
    obtain ⟨st, hst, h⟩ := Except.bind_eq_ok.mp h
    cases h
    exact ResourceStatus.mapTimes_of_decode (hfits status (valueAt?_eq hfield)) hst

/-! ### The round trip -/

/-- Values are read back from their documents as `stored` leaves them, and a value that was read
from any document that fits is read again from its own. -/
structure RoundTrips {α : Type} (encode : α → Document)
    (decode : Document → Except NodeError α) (stored : α → α) (DocumentFits : Document → Prop) :
    Prop where
  decode_encode (a : α) : decode (encode a) = .ok (stored a)
  decode_again {d : Document} {a : α} : DocumentFits d → decode d = .ok a →
    decode (encode a) = .ok a

/-- It is enough that what was read is stored as it is. -/
theorem RoundTrips.of_stored_eq {α : Type} {encode : α → Document}
    {decode : Document → Except NodeError α} {stored : α → α} {DocumentFits : Document → Prop}
    (hencode : ∀ a, decode (encode a) = .ok (stored a))
    (hstored : ∀ d a, DocumentFits d → decode d = .ok a → stored a = a) :
    RoundTrips encode decode stored DocumentFits where
  decode_encode := hencode
  decode_again {d a} hfits h := by rw [hencode, hstored d a hfits h]

/-- **Documents and values say the same.** Conditions and resources are read back with their times
to the second, versions and references as they are; and what any document was read as, a time out
of range apart, is read as that again after it was written. -/
theorem codecs_roundTrip :
    RoundTrips Condition.encode Condition.decode
      (fun c => { c with lastTransition := c.lastTransition.truncate }) Condition.TimeFits ∧
    RoundTrips OperandVersion.encode OperandVersion.decode id (fun _ => True) ∧
    RoundTrips ObjectReference.encode ObjectReference.decode id (fun _ => True) ∧
    RoundTrips ClusterOperator.encode ClusterOperator.decode
      (ClusterOperator.mapTimes Instant.truncate) ClusterOperator.TimesFit := by
  refine ⟨.of_stored_eq Condition.decode_encode ?_, .of_stored_eq OperandVersion.decode_encode ?_,
    .of_stored_eq ObjectReference.decode_encode ?_,
    .of_stored_eq ClusterOperator.decode_encode ?_⟩
  · intro d c hfits h
    rw [Condition.truncate_of_decode hfits h]
  · exact fun _ _ _ _ => rfl
  · exact fun _ _ _ _ => rfl
  · intro d r hfits h
    rw [ClusterOperator.mapTimes, ClusterOperator.mapTimes_of_decode hfits h]

/-- A document written by hand: its keys are in another order, one is not known, an entry is null,
and the time, before 1970, ends after the minute. -/
theorem codecs_roundTrip_handwritten :
    let condition : Document := .record
      [("status", .scalar "True"), ("lastTransitionTime", .scalar "1969-12-31T23:58"),
        ("reason", .null), ("type", .scalar "Degraded")]
    let d : Document := .record
      [("kind", .scalar "ClusterOperator"),
        ("status", .record [("conditions", .sequence [condition])]), ("name", .scalar "")]
    let r : ClusterOperator :=
      ⟨"", { conditions := [⟨.degraded, .true, "null", "", ⟨-120000000000⟩⟩] }⟩
    ClusterOperator.TimesFit d ∧ ClusterOperator.decode d = .ok r ∧
      ClusterOperator.decode r.encode = .ok r := by
  intro condition d r
  have hfits : ClusterOperator.TimesFit d := by decide +kernel
  have hread : ClusterOperator.decode d = .ok r := by decide +kernel
  exact ⟨hfits, hread, codecs_roundTrip.2.2.2.decode_again hfits hread⟩

end OperatorHealth

import OperatorHealth.Document.Basic

/-!
# Mappings whose keys are texts

In a mapping from texts, an entry is found by its text. Documents that are put together of such
mappings have texts for all their keys.

## Main results

* `Document.findEntry_record`: the entry of a key.
* `Document.hasTextKeys_record`, `Document.hasTextKeys_sequence`: keys that are texts.
-/

namespace OperatorHealth.Document

theorem findEntry_record (key : String) (fields : List (String × Document)) :
    findEntry key (fields.map fun f => (scalar f.1, f.2)) = fields.lookup key := by
  induction fields with
  | nil => rfl
  | cons f fields ih =>
    obtain ⟨k, d⟩ := f
    by_cases hk : k = key
    · simp [findEntry, key?, hk]
    · have hkey : (key == k) = false := beq_false_of_ne (Ne.symm hk)
      simpa [findEntry, key?, List.lookup_cons, hk, hkey] using ih

theorem field?_record (key : String) (fields : List (String × Document)) :
    (record fields).field? key = .ok (fields.lookup key) :=
  congrArg Except.ok (findEntry_record key fields)

@[simp] theorem hasTextKeys_scalar (text : String) : (scalar text).hasTextKeys = true := rfl

@[simp] theorem hasTextKeys_sequence (items : List Document) :
    (sequence items).hasTextKeys = items.all hasTextKeys := by
  change itemsHaveTextKeys items = _
  induction items with
  | nil => rfl
  | cons d ds ih => rw [itemsHaveTextKeys, ih, List.all_cons]

@[simp] theorem hasTextKeys_record (fields : List (String × Document)) :
    (record fields).hasTextKeys = fields.all fun f => f.2.hasTextKeys := by
  change entriesHaveTextKeys _ = _
  induction fields with
  | nil => rfl
  | cons f fields ih =>
    rw [List.map_cons, entriesHaveTextKeys, ih, List.all_cons]
    rfl

end OperatorHealth.Document

import Mathlib.Data.List.Nodup
import Mathlib.Data.List.Perm.Subperm
import OperatorHealth.Resource.Equality

/-!
# Lists compared by a key, and references compared in order

Conditions are compared by their kinds and versions by their names: the lists have one length, and
each item of the first is the one that is found for its key in the second. Where no key occurs twice
in either list, that is to find the same for every key, and it is equality up to order. References
are sorted first, by an order in which different references are never equal, so they are compared up
to order as well, however often each of them occurs.

## Main definitions

* `SameByKey`: the comparison of two lists by a key.
* `IsUnambiguous`: items of one key are equal.

## Main results

* `SameByKey.trans`, `sameByKey_self_iff`, `sameByKey_iff_perm`, `isUnambiguous_of_perm`: the laws
  of the comparison by a key.
* `perm_iff_find?_eq`: lists in which no key occurs twice are known by what is found for each key.
* `sameConditions_eq_true_iff`, `sameVersions_eq_true_iff`, `sameReferences_iff_perm`: the
  comparison of each part of a status.
-/

namespace OperatorHealth

/-! ### Comparison by a key -/

section Keyed

variable {α κ : Type} {key : α → κ} {a b c : List α} {x : α}

/-- Items of one key are equal. -/
def IsUnambiguous (key : α → κ) (a : List α) : Prop :=
  ∀ x ∈ a, ∀ y ∈ a, key x = key y → x = y

instance [DecidableEq α] [DecidableEq κ] (key : α → κ) (a : List α) :
    Decidable (IsUnambiguous key a) :=
  inferInstanceAs (Decidable (∀ x ∈ a, ∀ y ∈ a, key x = key y → x = y))

theorem isUnambiguous_of_nodup (h : (a.map key).Nodup) : IsUnambiguous key a :=
  fun _ hx _ hy hkey => List.inj_on_of_nodup_map h hx hy hkey

theorem IsUnambiguous.perm (h : IsUnambiguous key a) (hab : a.Perm b) : IsUnambiguous key b :=
  fun x hx y hy => h x (hab.mem_iff.mpr hx) y (hab.mem_iff.mpr hy)

variable [DecidableEq κ]

/-- Lists of one length, where each item of the first is the first one of its key in the second. -/
structure SameByKey (key : α → κ) (a b : List α) : Prop where
  length_eq : a.length = b.length
  find?_eq : ∀ x ∈ a, b.find? (key · == key x) = some x

theorem exists_find?_key (key : α → κ) (hx : x ∈ a) :
    ∃ y, a.find? (key · == key x) = some y ∧ y ∈ a ∧ key y = key x := by
  have hsome : (a.find? (key · == key x)).isSome :=
    List.find?_isSome.mpr ⟨x, hx, beq_self_eq_true (key x)⟩
  obtain ⟨y, hy⟩ := Option.isSome_iff_exists.mp hsome
  exact ⟨y, hy, List.mem_of_find?_eq_some hy, by simpa using List.find?_some hy⟩

theorem IsUnambiguous.find?_eq (h : IsUnambiguous key a) (hx : x ∈ a) :
    a.find? (key · == key x) = some x := by
  obtain ⟨y, hfound, hy, hkey⟩ := exists_find?_key key hx
  rw [hfound, h y hy x hx hkey]

/-- Of an unambiguous list, what is found for a key is the item with that key. -/
theorem IsUnambiguous.find?_eq_some_iff (h : IsUnambiguous key a) {k : κ} :
    a.find? (key · == k) = some x ↔ x ∈ a ∧ key x = k := by
  constructor
  · exact fun hx => ⟨List.mem_of_find?_eq_some hx, by simpa using List.find?_some hx⟩
  · rintro ⟨hx, rfl⟩
    exact h.find?_eq hx

/-- Of pairs with different keys, the value that is found for a key is the one that it is paired
with. -/
theorem find?_map_snd_eq_some_iff {β : Type} {ps : List (κ × β)} {k : κ} {v : β}
    (h : (ps.map Prod.fst).Nodup) :
    (ps.find? (·.1 == k)).map Prod.snd = some v ↔ (k, v) ∈ ps := by
  rw [Option.map_eq_some_iff]
  constructor
  · rintro ⟨p, hp, rfl⟩
    obtain ⟨hmem, rfl⟩ := (isUnambiguous_of_nodup h).find?_eq_some_iff.mp hp
    exact hmem
  · exact fun hmem => ⟨(k, v), (isUnambiguous_of_nodup h).find?_eq hmem, rfl⟩

/-- Where no key occurs twice, lists are the same up to order if the same is found in them for each
key. -/
theorem perm_iff_find?_eq (ha : (a.map key).Nodup) (hb : (b.map key).Nodup) :
    a.Perm b ↔ ∀ k, a.find? (key · == k) = b.find? (key · == k) := by
  have hfound {k : κ} {x : α} : a.find? (key · == k) = some x ↔ x ∈ a ∧ key x = k :=
    (isUnambiguous_of_nodup ha).find?_eq_some_iff
  have hfound' {k : κ} {x : α} : b.find? (key · == k) = some x ↔ x ∈ b ∧ key x = k :=
    (isUnambiguous_of_nodup hb).find?_eq_some_iff
  constructor
  · intro h k
    ext x
    rw [hfound, hfound', h.mem_iff]
  · intro h
    refine (List.perm_ext_iff_of_nodup (.of_map key ha) (.of_map key hb)).mpr fun x => ?_
    have hx : x ∈ a ∧ key x = key x ↔ x ∈ b ∧ key x = key x := by rw [← hfound, ← hfound', h]
    simpa using hx

namespace SameByKey

theorem mem (h : SameByKey key a b) (hx : x ∈ a) : x ∈ b :=
  List.mem_of_find?_eq_some (h.find?_eq x hx)

theorem trans (hab : SameByKey key a b) (hbc : SameByKey key b c) : SameByKey key a c where
  length_eq := hab.length_eq.trans hbc.length_eq
  find?_eq x hx := hbc.find?_eq x (hab.mem hx)

/-- The order in the first list does not matter. -/
theorem perm_left (h : SameByKey key a b) {a' : List α} (ha : a.Perm a') : SameByKey key a' b where
  length_eq := ha.length_eq.symm.trans h.length_eq
  find?_eq x hx := h.find?_eq x (ha.mem_iff.mpr hx)

/-- The order in the second list does not matter if it is unambiguous. -/
theorem perm_right (h : SameByKey key a b) (hb : IsUnambiguous key b) {b' : List α}
    (hperm : b.Perm b') : SameByKey key a b' where
  length_eq := h.length_eq.trans hperm.length_eq
  find?_eq _ hx := (hb.perm hperm).find?_eq (hperm.mem_iff.mp (h.mem hx))

end SameByKey

theorem sameByKey_self_iff : SameByKey key a a ↔ IsUnambiguous key a := by
  constructor
  · intro h x hx y hy hkey
    have hfound := h.find?_eq x hx
    rw [hkey, h.find?_eq y hy] at hfound
    exact (Option.some.inj hfound).symm
  · exact fun h => ⟨rfl, fun _ hx => h.find?_eq hx⟩

/-- Where no key occurs twice, the comparison is equality up to order. -/
theorem sameByKey_iff_perm (ha : (a.map key).Nodup) : SameByKey key a b ↔ a.Perm b := by
  constructor
  · intro h
    have hsubset : a ⊆ b := fun _ hx => h.mem hx
    exact (List.subperm_of_subset (List.Nodup.of_map key ha) hsubset).perm_of_length_le
      (Nat.le_of_eq h.length_eq.symm)
  · exact fun h => (sameByKey_self_iff.mpr (isUnambiguous_of_nodup ha)).perm_right
      (isUnambiguous_of_nodup ha) h

/-- A list of copies of the item that comes first compares equal to the whole list. -/
theorem sameByKey_replicate (key : α → κ) (hx : x ∈ b) :
    ∃ y, key y = key x ∧ SameByKey key (List.replicate b.length y) b := by
  obtain ⟨y, hfound, -, hkey⟩ := exists_find?_key key hx
  refine ⟨y, hkey, List.length_replicate, fun z hz => ?_⟩
  rw [List.eq_of_mem_replicate hz, hkey, hfound]

theorem exists_sameByKey (key : α → κ) (b : List α) : ∃ a, SameByKey key a b := by
  cases b with
  | nil => exact ⟨[], rfl, fun _ hx => nomatch hx⟩
  | cons x b =>
    have hx : x ∈ x :: b := List.mem_cons_self ..
    obtain ⟨y, -, h⟩ := sameByKey_replicate key hx
    exact ⟨_, h⟩

/-- The order in the second list does not matter for any first list only if it is unambiguous: of
two items of one key, either may come first. -/
theorem isUnambiguous_of_perm
    (h : ∀ a b', SameByKey key a b → b.Perm b' → SameByKey key a b') : IsUnambiguous key b := by
  classical
  intro x hx y hy hkey
  obtain ⟨z, hz, hsame⟩ := sameByKey_replicate key hx
  have hfirst (w : α) (hw : w ∈ b) (hwz : key w = key z) : w = z := by
    have hmoved := (h _ _ hsame (List.perm_cons_erase hw)).find?_eq z
      (List.mem_replicate.mpr ⟨Nat.ne_of_gt (List.length_pos_of_mem hx), rfl⟩)
    rw [List.find?_cons_of_pos (by simpa using hwz)] at hmoved
    exact Option.some.inj hmoved
  exact (hfirst x hx hz.symm).trans (hfirst y hy (hkey ▸ hz.symm)).symm

end Keyed

/-! ### Conditions, versions and references -/

theorem sameConditions_iff {a b : List Condition} :
    sameConditions a b = true ↔ SameByKey (·.kind) a b := by
  simp only [sameConditions, findCondition, Bool.and_eq_true, List.all_eq_true, beq_iff_eq]
  exact ⟨fun h => ⟨h.1, h.2⟩, fun h => ⟨h.length_eq, h.find?_eq⟩⟩

/-- Where no kind occurs twice, conditions compare equal if the same is found for each kind. -/
theorem sameConditions_eq_true_iff {a b : List Condition} (ha : (a.map (·.kind)).Nodup)
    (hb : (b.map (·.kind)).Nodup) :
    sameConditions a b = true ↔ ∀ k, findCondition k a = findCondition k b := by
  rw [sameConditions_iff, sameByKey_iff_perm ha, perm_iff_find?_eq ha hb]
  rfl

theorem sameConditions_self {cs : List Condition} (h : (cs.map (·.kind)).Nodup) :
    sameConditions cs cs = true :=
  (sameConditions_eq_true_iff h h).mpr fun _ => rfl

theorem sameVersions_iff {a b : List OperandVersion} :
    sameVersions a b = true ↔ SameByKey (·.name) a b := by
  simp only [sameVersions, findVersion, Bool.and_eq_true, List.all_eq_true, beq_iff_eq]
  exact ⟨fun h => ⟨h.1, h.2⟩, fun h => ⟨h.length_eq, h.find?_eq⟩⟩

/-- Where no name occurs twice, versions compare equal if the same is found for each name. -/
theorem sameVersions_eq_true_iff {a b : List OperandVersion} (ha : (a.map (·.name)).Nodup)
    (hb : (b.map (·.name)).Nodup) :
    sameVersions a b = true ↔ ∀ name, findVersion name a = findVersion name b := by
  rw [sameVersions_iff, sameByKey_iff_perm ha, perm_iff_find?_eq ha hb]
  rfl

theorem ObjectReference.key_injective : Function.Injective key := by
  rintro ⟨group, resource, ns, name⟩ ⟨group', resource', ns', name'⟩ h
  simpa [key] using h

section Order

variable {r s t : ObjectReference}

theorem ObjectReference.not_lt_trans (hrs : ¬ s < r) (hst : ¬ t < s) : ¬ t < r := by
  have hle : @LE.le (List String) List.instLE r.key t.key := List.le_trans hrs hst
  exact hle

theorem ObjectReference.not_lt_total (r s : ObjectReference) : ¬ s < r ∨ ¬ r < s := by
  have hle : @LE.le (List String) List.instLE r.key s.key ∨
      @LE.le (List String) List.instLE s.key r.key := List.le_total r.key s.key
  exact hle

theorem ObjectReference.eq_of_not_lt (hrs : ¬ s < r) (hsr : ¬ r < s) : r = s := by
  have hkey : r.key = s.key := List.le_antisymm hrs hsr
  exact key_injective hkey

end Order

/-- References in another order are the same when they are sorted. -/
theorem sortReferences_eq_of_perm {a b : List ObjectReference} (h : a.Perm b) :
    sortReferences a = sortReferences b := by
  have hle (r s : ObjectReference) : (!decide (s < r)) = true ↔ ¬ s < r := by simp
  have hsorted (rs : List ObjectReference) :
      (sortReferences rs).Pairwise fun r s => ¬ s < r := by
    refine (List.pairwise_mergeSort ?_ ?_ rs).imp fun hrs => (hle _ _).mp hrs
    · intro r s t hrs hst
      exact (hle r t).mpr (ObjectReference.not_lt_trans ((hle r s).mp hrs) ((hle s t).mp hst))
    · intro r s
      rw [Bool.or_eq_true, hle, hle]
      exact ObjectReference.not_lt_total r s
  have hperm : (sortReferences a).Perm (sortReferences b) :=
    (List.mergeSort_perm a _).trans (h.trans (List.mergeSort_perm b _).symm)
  exact hperm.eq_of_pairwise (fun r s _ _ => ObjectReference.eq_of_not_lt) (hsorted a) (hsorted b)

theorem perm_of_sameReferences {rs ts : List ObjectReference} (h : sameReferences rs ts = true) :
    rs.Perm ts := by
  have hperm (xs : List ObjectReference) : (sortReferences xs).Perm xs := List.mergeSort_perm xs _
  have hsorted : sortReferences rs = sortReferences ts := beq_iff_eq.mp h
  exact (hperm rs).symm.trans (hsorted ▸ hperm ts)

/-- References are compared up to order, however often each occurs. -/
theorem sameReferences_iff_perm {a b : List ObjectReference} :
    sameReferences a b = true ↔ a.Perm b :=
  ⟨perm_of_sameReferences, fun h => beq_iff_eq.mpr (sortReferences_eq_of_perm h)⟩

end OperatorHealth

import OperatorHealth.Store.Memory

/-!
# What calls do to a store in memory

A call on a store in memory either does what it says and counts it, or fails and leaves the
resources and the counts as they were. A refusal that waited is used up either way.

## Main definitions

* `MemoryStore.SameContents`: stores with the same resources and the same counts.
* `MemoryStore.HoldsOnly`: stores with one resource at most, of a given name.
* `MemoryStore.statusOf`: the status of the resource of a name.

## Main results

* `MemoryStore.get_cases`, `MemoryStore.create_cases`, `MemoryStore.replaceStatus_cases`: the
  calls.
* `MemoryStore.find?_put_self`, `MemoryStore.find?_put_of_ne`: what is found after a resource was
  put in.
-/

namespace OperatorHealth

namespace MemoryStore

variable {s t u : MemoryStore} {r : ClusterOperator} {name : String}

/-- Two stores hold the same resources and have counted the same writes. -/
structure SameContents (s t : MemoryStore) : Prop where
  objects : s.objects = t.objects
  creates : s.creates = t.creates
  updates : s.updates = t.updates

namespace SameContents

@[refl] protected theorem refl (s : MemoryStore) : SameContents s s := ⟨rfl, rfl, rfl⟩

protected theorem trans (h : SameContents s t) (h' : SameContents t u) : SameContents s u :=
  ⟨h.objects.trans h'.objects, h.creates.trans h'.creates, h.updates.trans h'.updates⟩

theorem find?_eq (h : SameContents s t) (name : String) : s.find? name = t.find? name := by
  rw [find?, find?, h.objects]

theorem writes_eq (h : SameContents s t) : s.writes = t.writes := by
  rw [writes, writes, h.creates, h.updates]

end SameContents

theorem refuseNext_sameContents (s : MemoryStore) (call : StoreCall) (message : String) :
    SameContents (s.refuseNext call message) s := by
  cases call <;> exact ⟨rfl, rfl, rfl⟩

/-- A store holds nothing, or one resource, which is called `name` and has a status with the
property `Q`. -/
def HoldsOnly (name : String) (Q : ResourceStatus → Prop) (s : MemoryStore) : Prop :=
  s.objects = [] ∨ ∃ status, Q status ∧ s.objects = [⟨name, status⟩]

theorem HoldsOnly.of_sameContents {Q : ResourceStatus → Prop} (h : HoldsOnly name Q t)
    (hs : SameContents s t) : HoldsOnly name Q s := by
  unfold HoldsOnly
  rw [hs.objects]
  exact h

theorem HoldsOnly.length_le_one {Q : ResourceStatus → Prop} (h : HoldsOnly name Q s) :
    s.objects.length ≤ 1 := by
  rcases h with h | ⟨status, -, h⟩ <;> simp [h]

/-! ### Looking for a name -/

theorem name_of_find? (h : s.find? name = some r) : r.name = name := by
  simpa using List.find?_some h

/-- The status of the resource of a name, empty if there is none. -/
def statusOf (name : String) (s : MemoryStore) : ResourceStatus :=
  ((s.find? name).map (·.status)).getD {}

theorem statusOf_of_find? (h : s.find? name = some r) : s.statusOf name = r.status := by
  rw [statusOf, h, Option.map_some, Option.getD_some]

theorem statusOf_of_find?_none (h : s.find? name = none) : s.statusOf name = {} := by
  rw [statusOf, h, Option.map_none, Option.getD_none]

theorem SameContents.statusOf_eq (h : SameContents s t) (name : String) :
    s.statusOf name = t.statusOf name := by
  rw [statusOf, statusOf, h.find?_eq]

private theorem find?_putIn_self (r : ClusterOperator) (rs : List ClusterOperator) :
    (putIn r rs).find? (·.name == r.name) = some r := by
  induction rs with
  | nil => simp [putIn]
  | cons x xs ih =>
    rw [putIn]
    split
    · simp
    · next h => simp [h, ih]

private theorem find?_putIn_of_ne {n : String} (h : r.name ≠ n) (rs : List ClusterOperator) :
    (putIn r rs).find? (·.name == n) = rs.find? (·.name == n) := by
  induction rs with
  | nil => simp [putIn, h]
  | cons x xs ih =>
    rw [putIn]
    split
    · next hx =>
      have hxn : x.name ≠ n := hx ▸ h
      simp [h, hxn]
    · simp [List.find?_cons, ih]

@[simp] theorem find?_put_self (s : MemoryStore) (r : ClusterOperator) :
    (s.put r).find? r.name = some r :=
  find?_putIn_self r s.objects

theorem find?_put_of_ne {n : String} (h : r.name ≠ n) : (s.put r).find? n = s.find? n :=
  find?_putIn_of_ne h s.objects

theorem find?_append_of_ne {n : String} (h : r.name ≠ n) (rs : List ClusterOperator) :
    (rs ++ [r]).find? (·.name == n) = rs.find? (·.name == n) := by
  simp [h]

private theorem length_putIn_of_mem {rs : List ClusterOperator}
    (h : ∃ x ∈ rs, x.name = r.name) : (putIn r rs).length = rs.length := by
  induction rs with
  | nil => simp at h
  | cons x xs ih =>
    rw [putIn]
    split
    · rfl
    · next hx =>
      obtain ⟨y, hy, hyr⟩ := h
      have hmem : y ∈ xs := (List.mem_cons.mp hy).resolve_left fun hyx => hx (hyx ▸ hyr)
      rw [List.length_cons, List.length_cons, ih ⟨y, hmem, hyr⟩]

/-- A resource of a name that is there takes its place. -/
theorem length_put_of_find? {old : ClusterOperator} (h : s.find? r.name = some old) :
    (s.put r).objects.length = s.objects.length :=
  length_putIn_of_mem ⟨old, List.mem_of_find?_eq_some h, name_of_find? h⟩

/-! ### Calls -/

/-- A `get` answers with what is found, or fails. -/
theorem get_cases (name : String) (s : MemoryStore) :
    (∃ r, s.find? name = some r ∧ get name s = (.ok r, s)) ∨
    ∃ fault t, get name s = (.error fault, t) ∧ SameContents t s := by
  unfold get
  split
  · exact .inr ⟨_, _, rfl, rfl, rfl, rfl⟩
  · cases hr : s.find? name with
    | none => exact .inr ⟨_, _, rfl, .refl s⟩
    | some r => exact .inl ⟨r, rfl, rfl⟩

/-- A `create` adds a resource of a new name and counts it, or fails. -/
theorem create_cases (r : ClusterOperator) (s : MemoryStore) :
    (s.find? r.name = none ∧
      create r s = (.ok (), { s with objects := s.objects ++ [r], creates := s.creates + 1 })) ∨
    ∃ fault t, create r s = (.error fault, t) ∧ SameContents t s := by
  unfold create
  split
  · exact .inr ⟨_, _, rfl, rfl, rfl, rfl⟩
  · cases hr : s.find? r.name with
    | none => exact .inl ⟨rfl, rfl⟩
    | some old => exact .inr ⟨_, _, rfl, .refl s⟩

/-- A `replaceStatus` gives the resource of the name its new status and counts that, or fails. -/
theorem replaceStatus_cases (r : ClusterOperator) (s : MemoryStore) :
    (∃ old, s.find? r.name = some old ∧ replaceStatus r s =
      (.ok (), { s.put { old with status := r.status } with updates := s.updates + 1 })) ∨
    ∃ fault t, replaceStatus r s = (.error fault, t) ∧ SameContents t s := by
  unfold replaceStatus
  split
  · exact .inr ⟨_, _, rfl, rfl, rfl, rfl⟩
  · cases hr : s.find? r.name with
    | none => exact .inr ⟨_, _, rfl, .refl s⟩
    | some old => exact .inl ⟨old, rfl, rfl⟩

end MemoryStore

end OperatorHealth

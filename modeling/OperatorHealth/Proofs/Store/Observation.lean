import OperatorHealth.Proofs.Document.Conversion
import OperatorHealth.Proofs.Resource.Equality
import OperatorHealth.Proofs.Store.Frame

/-!
# Stores that are looked at

What a store holds can be looked at without a call: in memory the resources are at hand, and in a
directory they are read from their files. After a call that writes, the resource of the name is the
one that was written, if the call succeeds, and the one from before if it fails.

A store gives no heed to the order of the conditions, versions and references of a resource. When
two resources of one name hold the same in any order, calls with them end in the same way, and leave
the same behind under every name, up to that order. In a directory this holds although the texts of
the two files differ.

## Main definitions

* `ClusterOperator.IsRearrangement`: two resources of one name that hold the same in any order.
* `ShowsContents`: what a store holds after a call.
* `EndsAlike`, `DisregardsOrder`: calls with such resources end in the same way.

## Main results

* `MemoryStore.showsContents`, `FileStore.showsContents`, `ShowsContents.scripted`.
* `MemoryStore.disregardsOrder`, `FileStore.disregardsOrder`, `DisregardsOrder.scripted`.
-/

namespace OperatorHealth

/-! ### Resources in another order -/

/-- Two resources of one name hold the same in any order. -/
structure ClusterOperator.IsRearrangement (a b : ClusterOperator) : Prop where
  name_eq : a.name = b.name
  status : a.status.IsRearrangement b.status

theorem ClusterOperator.mapTimes_id (r : ClusterOperator) : r.mapTimes id = r := by
  rw [mapTimes, ResourceStatus.mapTimes_id]

namespace ClusterOperator.IsRearrangement

variable {a b : ClusterOperator}

theorem refl (a : ClusterOperator) : a.IsRearrangement a := ⟨rfl, .refl _⟩

theorem ofStatus {st st' : ResourceStatus} (name : String) (h : st.IsRearrangement st') :
    ClusterOperator.IsRearrangement ⟨name, st⟩ ⟨name, st'⟩ := ⟨rfl, h⟩

theorem mapTimes (h : a.IsRearrangement b) (f : Instant → Instant) :
    (a.mapTimes f).IsRearrangement (b.mapTimes f) :=
  ⟨h.name_eq, h.status.conditions.map _, h.status.versions, h.status.related⟩

/-- A resource is there in both cases, in any order, or in neither. -/
theorem rel_refl (found : Option ClusterOperator) : Option.Rel IsRearrangement found found := by
  cases found with
  | none => exact .none
  | some a => exact .some (.refl a)

end ClusterOperator.IsRearrangement

/-! ### What is asked of a store -/

section Laws

variable {σ : Type} (look : String → σ → Option ClusterOperator)

/-- What a call on the store `s` that writes leaves under the name of the resource `new`: that
resource if it succeeds, and what was there, or nothing, if it fails. -/
structure PutsOrKeeps (new : ClusterOperator) (s : σ) (x : Except StoreFault Unit × σ) : Prop where
  puts : x.1 = .ok () → look new.name x.2 = some new
  keeps : ∀ fault, x.1 = .error fault →
    look new.name x.2 = look new.name s ∨ look new.name x.2 = none

/-- Two calls, or two cycles, end in the same way, and leave the same resources, each in any order.
-/
structure EndsAlike {α : Type} (x y : α × σ) : Prop where
  end_eq : x.1 = y.1
  look (n : String) : Option.Rel ClusterOperator.IsRearrangement (look n x.2) (look n y.2)

variable {look}

theorem PutsOrKeeps.of_ok {new : ClusterOperator} {s : σ} {x : Except StoreFault Unit × σ}
    (hend : x.1 = .ok ()) (hputs : look new.name x.2 = some new) : PutsOrKeeps look new s x :=
  ⟨fun _ => hputs, fun _ h => absurd (hend.symm.trans h) (by simp)⟩

theorem PutsOrKeeps.of_error {new : ClusterOperator} {s : σ} {x : Except StoreFault Unit × σ}
    {fault : StoreFault} (hend : x.1 = .error fault)
    (hkeeps : look new.name x.2 = look new.name s ∨ look new.name x.2 = none) :
    PutsOrKeeps look new s x :=
  ⟨fun h => absurd (hend.symm.trans h) (by simp), fun _ _ => hkeeps⟩

theorem EndsAlike.refl {α : Type} (x : α × σ) : EndsAlike look x x :=
  ⟨rfl, fun _ => ClusterOperator.IsRearrangement.rel_refl _⟩

variable (σ) [ResourceStore σ] (look)

/-- What `look` shows of a store, with the times that are written mapped by `f`. A status is not
replaced under a name where something else is recorded. -/
structure ShowsContents (f : Instant → Instant) : Prop where
  get_ok {name : String} {s t : σ} {r : ClusterOperator} :
    ResourceStore.get name s = (.ok r, t) → look name s = some r
  get_keeps {name : String} {s t : σ} {answer : Except StoreFault ClusterOperator} :
    ResourceStore.get name s = (answer, t) → ∀ n, look n t = look n s
  create (r : ClusterOperator) (s : σ) :
    PutsOrKeeps look (r.mapTimes f) s (ResourceStore.create r s)
  replaceStatus {r : ClusterOperator} {s : σ} :
    (∀ old, look r.name s = some old → old.name = r.name) →
      PutsOrKeeps look (r.mapTimes f) s (ResourceStore.replaceStatus r s)

/-- A store to which the order of what a resource holds makes no difference. -/
structure DisregardsOrder : Prop where
  create {a b : ClusterOperator} : a.IsRearrangement b → ∀ s : σ,
    EndsAlike look (ResourceStore.create a s) (ResourceStore.create b s)
  replaceStatus {a b : ClusterOperator} : a.IsRearrangement b → ∀ s : σ,
    EndsAlike look (ResourceStore.replaceStatus a s) (ResourceStore.replaceStatus b s)

end Laws

/-! ### Stores in memory -/

namespace MemoryStore

variable {r a b : ClusterOperator} {s : MemoryStore}

/-- What is found in memory. -/
def look (n : String) (s : MemoryStore) : Option ClusterOperator := s.find? n

theorem look_append_self {objects : List ClusterOperator} (hnone : s.find? r.name = none)
    (hobjects : objects = s.objects ++ [r]) : objects.find? (·.name == r.name) = some r := by
  have hnone' : s.objects.find? (·.name == r.name) = none := hnone
  simp [hobjects, hnone']

theorem showsContents : ShowsContents MemoryStore look id where
  get_ok h := (get_eq_ok_iff.mp h).2.1
  get_keeps {name s t answer} h n := by
    rcases get_cases name s with ⟨r, -, hget⟩ | ⟨fault, u, hget, hsame⟩ <;>
      cases hget.symm.trans h
    · rfl
    · exact hsame.find?_eq n
  create r s := by
    rw [ClusterOperator.mapTimes_id]
    change PutsOrKeeps look r s (create r s)
    rcases create_cases r s with ⟨hnone, hcreate⟩ | ⟨fault, t, hcreate, hsame⟩ <;> rw [hcreate]
    · exact .of_ok rfl (look_append_self hnone rfl)
    · exact .of_error rfl (.inl (hsame.find?_eq r.name))
  replaceStatus {r s} _ := by
    rw [ClusterOperator.mapTimes_id]
    change PutsOrKeeps look r s (replaceStatus r s)
    rcases replaceStatus_cases r s with ⟨old, hold, hupdate⟩ | ⟨fault, t, hupdate, hsame⟩ <;>
      rw [hupdate]
    · have hput : ({ old with status := r.status } : ClusterOperator) = r := by
        rw [name_of_find? hold]
      rw [hput]
      exact .of_ok rfl (find?_put_self s r)
    · exact .of_error rfl (.inl (hsame.find?_eq r.name))

/-- One resource more, or one in the place of another, is there under its name alone. -/
theorem rel_look_append (hab : a.IsRearrangement b) (objects : List ClusterOperator) (n : String) :
    Option.Rel ClusterOperator.IsRearrangement ((objects ++ [a]).find? (·.name == n))
      ((objects ++ [b]).find? (·.name == n)) := by
  rw [List.find?_append, List.find?_append]
  cases objects.find? (·.name == n) with
  | some r => exact .some (.refl r)
  | none =>
    by_cases hn : a.name = n
    · have hn' : b.name = n := hab.name_eq ▸ hn
      simpa [hn, hn'] using Option.Rel.some hab
    · have hn' : b.name ≠ n := hab.name_eq ▸ hn
      simp [hn, hn']

theorem rel_look_put (hab : a.IsRearrangement b) (s : MemoryStore) (n : String) :
    Option.Rel ClusterOperator.IsRearrangement ((s.put a).find? n) ((s.put b).find? n) := by
  by_cases hn : a.name = n
  · subst hn
    rw [find?_put_self, hab.name_eq, find?_put_self]
    exact .some hab
  · rw [find?_put_of_ne hn, find?_put_of_ne (hab.name_eq ▸ hn)]
    exact ClusterOperator.IsRearrangement.rel_refl _

theorem disregardsOrder : DisregardsOrder MemoryStore look where
  create {a b} hab s := by
    change EndsAlike look (create a s) (create b s)
    unfold create
    rw [hab.name_eq]
    split
    · exact .refl _
    · split
      · exact .refl _
      · exact ⟨rfl, rel_look_append hab s.objects⟩
  replaceStatus {a b} hab s := by
    change EndsAlike look (replaceStatus a s) (replaceStatus b s)
    unfold replaceStatus
    rw [hab.name_eq]
    split
    · exact .refl _
    · split
      · next old _ => exact ⟨rfl, rel_look_put (.ofStatus old.name hab.status) s⟩
      · exact .refl _

end MemoryStore

/-! ### Stores in a directory -/

namespace FileStore

variable [DocumentFormat] {r a b : ClusterOperator} {s t : FileStore} {q : Place}

/-- What is read in a directory. -/
def look (n : String) (s : FileStore) : Option ClusterOperator := (s.read n).toOption

theorem look_eq_some_iff {n : String} : look n s = some r ↔ s.get n = .ok r := by
  rw [look, Except.toOption_eq_some, get]

variable [LawfulDocumentFormat]

/-- No resource is read from a file without a text. -/
theorem look_of_lookup_empty {n : String} (hresolve : s.tree.resolve (s.filePath n) = .ok q)
    (hempty : s.tree.lookup q = some (.file "")) : look n s = none := by
  have hcontains : s.tree.contains (s.filePath n) = .ok true := by
    simp [FileTree.contains, hresolve, hempty]
  have hload : s.tree.load? (s.filePath n) = .ok .null :=
    FileTree.load?_of_lookup hresolve hempty LawfulDocumentFormat.read?_empty
  have hdecode : ClusterOperator.decode .null = .error .badConversion := rfl
  unfold look read
  simp only [hcontains, hload, hdecode]
  rfl

theorem putsOrKeeps_write (r : ClusterOperator) (s : FileStore) :
    PutsOrKeeps look (r.mapTimes Instant.truncate) s (write r s) := by
  cases writeCourse r s with
  | kept fault hrun =>
    rw [hrun]
    exact .of_error rfl (.inl rfl)
  | emptied draft t hdraft hdir _ hrun hempty hchanged =>
    rw [hrun]
    refine .of_error rfl ?_
    by_cases hfile : s.tree.resolve (s.filePath r.name) = .ok draft
    · refine .inr (look_of_lookup_empty ?_ hempty)
      rw [hchanged.resolve_eq, filePath, hchanged.directory]
      exact hfile
    · have hread : t.read r.name = s.read r.name :=
        hchanged.read_congr fun x hx => List.mem_singleton.mp hx ▸ hfile
      exact .inl (congrArg Except.toOption hread)
  | leftBeside fault draft t _ _ hfile hrun hchanged =>
    have hread : t.read r.name = s.read r.name :=
      hchanged.read_congr fun x hx => List.mem_singleton.mp hx ▸ hfile
    rw [hrun]
    exact .of_error rfl (.inl (congrArg Except.toOption hread))
  | replaced draft file t _ _ _ _ hrun _ =>
    have hread := read_of_write hrun
    rw [hrun]
    exact .of_ok rfl (congrArg Except.toOption hread)

theorem showsContents : ShowsContents FileStore look Instant.truncate where
  get_ok {name s t r} h := by
    rw [get_eq] at h
    rw [look, (Prod.mk.inj h).1]
    rfl
  get_keeps h _ := by
    rw [get_eq] at h
    rw [(Prod.mk.inj h).2]
  create r s := by
    change PutsOrKeeps look _ s (create r s)
    unfold create
    split
    · exact .of_error rfl (.inl rfl)
    · exact .of_error rfl (.inl rfl)
    · exact putsOrKeeps_write r s
  replaceStatus {r s} hname := by
    cases hread : s.read r.name with
    | error fault =>
      rw [replaceStatus_of_error hread]
      exact .of_error rfl (.inl rfl)
    | ok old =>
      have hput : ({ old with status := r.status } : ClusterOperator) = r := by
        rw [hname old (by rw [look, hread]; rfl)]
      rw [replaceStatus_of_ok hread, hput]
      exact putsOrKeeps_write r s

omit [LawfulDocumentFormat] in
/-- Two states of a store that differ in the file at `q` alone, where each has a resource. -/
theorem rel_look_of_changedAt {text text' : String} (hchanged : ChangedAt [q] s t)
    (hs : s.tree.lookup q = some (.file text)) (ha : DocumentFormat.read? text = some a.encode)
    (ht : t.tree.lookup q = some (.file text')) (hb : DocumentFormat.read? text' = some b.encode)
    (hab : a.IsRearrangement b) (n : String) :
    Option.Rel ClusterOperator.IsRearrangement (look n s) (look n t) := by
  by_cases hn : s.tree.resolve (s.filePath n) = .ok q
  · have hn' : t.tree.resolve (t.filePath n) = .ok q := by
      rw [hchanged.resolve_eq, filePath, hchanged.directory]
      exact hn
    rw [look, look, read_of_lookup hn hs ha, read_of_lookup hn' ht hb]
    exact .some (hab.mapTimes Instant.truncate)
  · rw [look, look, hchanged.read_congr fun x hx => List.mem_singleton.mp hx ▸ hn]
    exact ClusterOperator.IsRearrangement.rel_refl _

theorem endsAlike_write (hab : a.IsRearrangement b) (s : FileStore) :
    EndsAlike look (write a s) (write b s) := by
  obtain ⟨text, htext⟩ := exists_write?_encode a
  obtain ⟨text', htext'⟩ := exists_write?_encode b
  have ha := LawfulDocumentFormat.read?_of_write? htext
  have hb := LawfulDocumentFormat.read?_of_write? htext'
  rw [write_eq_writeText htext, write_eq_writeText htext', ← hab.name_eq]
  cases textCourse_writeText a.name s with
  | notOpened hcourse =>
    rw [hcourse, hcourse]
    exact .refl _
  | refused _ _ _ _ hcourse =>
    rw [hcourse, hcourse]
    exact .refl _
  | notRenamed draft _ _ hdir _ hcourse =>
    rw [hcourse, hcourse]
    have hstanding := FileTree.isStanding_eq_false hdir
    refine ⟨rfl, rel_look_of_changedAt ⟨rfl, fun x => ?_, fun x hx => ?_⟩
      (FileTree.lookup_set_self hstanding) ha (FileTree.lookup_set_self hstanding) hb hab⟩
    · exact (FileTree.isDirectory_set_file hdir _ x).trans
        (FileTree.isDirectory_set_file hdir _ x).symm
    · have hne : x ≠ draft := mt List.mem_singleton.mpr hx
      exact (FileTree.lookup_set_of_ne hne).trans (FileTree.lookup_set_of_ne hne).symm
  | renamed draft file _ hdir _ hfiled hcourse =>
    rw [hcourse, hcourse]
    refine ⟨rfl, rel_look_of_changedAt ⟨rfl, fun x => ?_, fun x hx => ?_⟩
      (FileTree.lookup_moved_self hfiled _) ha (FileTree.lookup_moved_self hfiled _) hb hab⟩
    · exact (FileTree.isDirectory_moved hdir hfiled _ x).trans
        (FileTree.isDirectory_moved hdir hfiled _ x).symm
    · have hne : x ≠ file := mt List.mem_singleton.mpr hx
      by_cases hx' : x = draft
      · subst hx'
        rw [FileTree.lookup_moved_source hdir hne, FileTree.lookup_moved_source hdir hne]
      · rw [FileTree.lookup_moved_of_ne hx' hne, FileTree.lookup_moved_of_ne hx' hne]

theorem disregardsOrder : DisregardsOrder FileStore look where
  create {a b} hab s := by
    change EndsAlike look (create a s) (create b s)
    unfold create
    rw [hab.name_eq]
    split
    · exact .refl _
    · exact .refl _
    · exact endsAlike_write hab s
  replaceStatus {a b} hab s := by
    change EndsAlike look (replaceStatus a s) (replaceStatus b s)
    unfold replaceStatus
    rw [hab.name_eq]
    split
    · exact .refl _
    · next old _ => exact endsAlike_write (.ofStatus old.name hab.status) s

end FileStore

/-! ### Stores under a script -/

section Script

variable {σ : Type} [ResourceStore σ] {look : String → σ → Option ClusterOperator}
  {f : Instant → Instant}

/-- What is there behind a script. -/
def ScriptedStore.lookBehind (look : String → σ → Option ClusterOperator) (n : String)
    (s : ScriptedStore σ) : Option ClusterOperator :=
  look n s.inner

open ScriptedStore (lookBehind perform)

omit [ResourceStore σ] in
theorem PutsOrKeeps.perform {new : ClusterOperator} {run : σ → Except StoreFault Unit × σ}
    {s : ScriptedStore σ} (h : PutsOrKeeps look new s.inner (run s.inner)) (call : StoreCall)
    (name : String) : PutsOrKeeps (lookBehind look) new s (perform call name run s) := by
  rcases ScriptedStore.perform_cases call name run s with
    ⟨fault, t, hrun, hinner, -⟩ | ⟨t, hrun, hinner, -⟩ <;> rw [hrun]
  · exact .of_error rfl (.inl (congrArg (look new.name) hinner))
  · refine ⟨fun hok => ?_, fun fault herror => ?_⟩
    · exact (congrArg (look new.name) hinner).trans (h.puts hok)
    · have hlook : lookBehind look new.name t = look new.name (run s.inner).2 :=
        congrArg (look new.name) hinner
      rw [hlook]
      exact h.keeps fault herror

theorem ShowsContents.scripted (h : ShowsContents σ look f) :
    ShowsContents (ScriptedStore σ) (lookBehind look) f where
  get_ok {name s t r} hget := by
    rcases ScriptedStore.perform_cases .get name (ResourceStore.get name) s with
      ⟨fault, t, hrun, -, -⟩ | ⟨t, hrun, hinner, -⟩ <;>
      obtain ⟨hanswer, -⟩ := Prod.mk.inj (hrun.symm.trans hget)
    · cases hanswer
    · exact h.get_ok (Prod.ext hanswer rfl)
  get_keeps {name s t answer} hget n := by
    rcases ScriptedStore.perform_cases .get name (ResourceStore.get name) s with
      ⟨fault, u, hrun, hinner, -⟩ | ⟨u, hrun, hinner, -⟩ <;> cases hrun.symm.trans hget
    · exact congrArg (look n) hinner
    · exact (congrArg (look n) hinner).trans (h.get_keeps rfl n)
  create r s := (h.create r s.inner).perform .create r.name
  replaceStatus {r s} hname := (h.replaceStatus hname).perform .update r.name

omit [ResourceStore σ] in
theorem EndsAlike.perform {run run' : σ → Except StoreFault Unit × σ} {s : ScriptedStore σ}
    (h : EndsAlike look (run s.inner) (run' s.inner)) (call : StoreCall) (name : String) :
    EndsAlike (lookBehind look) (perform call name run s) (perform call name run' s) := by
  unfold ScriptedStore.perform ScriptedStore.answer
  cases s.script.head?.join with
  | some d => exact .refl _
  | none => exact ⟨h.end_eq, h.look⟩

theorem DisregardsOrder.scripted (h : DisregardsOrder σ look) :
    DisregardsOrder (ScriptedStore σ) (lookBehind look) where
  create {a b} hab s := by
    change EndsAlike _ (perform .create a.name _ s) (perform .create b.name _ s)
    rw [hab.name_eq]
    exact (h.create hab s.inner).perform .create b.name
  replaceStatus {a b} hab s := by
    change EndsAlike _ (perform .update a.name _ s) (perform .update b.name _ s)
    rw [hab.name_eq]
    exact (h.replaceStatus hab s.inner).perform .update b.name

end Script

end OperatorHealth

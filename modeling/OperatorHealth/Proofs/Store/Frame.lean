import OperatorHealth.Proofs.Store.Mirror

/-!
# What a write leaves alone

Whatever stands in the directory of a store, a write under a name touches nothing but the file and
the temporary file of that name, so whatever is read for another name is read as before. A write
that fails touches the temporary file at most, so it is read as before for every name; unless a zero
character cuts both paths short to one, and the disk refuses the text, which leaves the file empty.

The path of a file may lead nowhere, because it is too long, or back to the directory, because a
zero character cuts the path of the directory short. Then nothing is ever written to it.

## Main definitions

* `FileStore.IsPlain`: the names that are the name of one file in a directory.
* `FileStore.IsOpen`: the directory of a store is there.
* `FileStore.HasRoom`: the system takes the file of a name.
* `FileStore.ChangedAt`: two states of a store that differ at some places at most.
* `FileStore.IsDraft`: the places of temporary files.
* `FileStore.WriteCourse`: the courses of a write.

## Main results

* `FileStore.IsOpen.resolve_filePath`: where the path of the file of a plain name leads.
* `FileStore.ChangedAt.read_congr`, `FileStore.ChangedAt.read_eq`: what is read as before.
* `FileStore.IsOpen.not_isDraft`: no name is read from a temporary file.
* `FileStore.writeCourse`, `FileStore.IsOpen.changedAt_write`: what a write changes.
-/

namespace OperatorHealth

theorem Place.ne_child (p : Place) (name : String) : p ≠ p.child name := by
  intro h
  have hdepth := congrArg Place.depth h
  simp [child] at hdepth

namespace FileStore

variable {name n : String} {p q : Place} {s t : FileStore} {r : ClusterOperator}
  {places : List Place}

/-! ### Plain names and open stores -/

/-- A name that, seen from a directory, is the name of one file in it. -/
structure IsPlain (name : String) : Prop where
  no_slash : '/' ∉ name.toList
  no_zero : '\x00' ∉ name.toList

instance (name : String) : Decidable (IsPlain name) :=
  decidable_of_iff ('/' ∉ name.toList ∧ '\x00' ∉ name.toList)
    ⟨fun h => ⟨h.1, h.2⟩, fun h => ⟨h.no_slash, h.no_zero⟩⟩

/-- The directory of a store is there, at the place `p`. -/
structure IsOpen (p : Place) (s : FileStore) : Prop where
  resolve : s.tree.resolve s.directory = .ok p
  isDirectory : s.tree.isDirectory p = true

theorem exists_isOpen_of_open? {directory : String} {tree after : FileTree}
    (h : open? directory tree = (.ok s, after)) : ∃ p, IsOpen p s := by
  obtain ⟨rfl, p, hresolve, hp⟩ := exists_place_of_open? h
  exact ⟨p, hresolve, hp⟩

/-- Where the path of a file leads. -/
theorem IsOpen.eq_of_resolve {suffix : String} (h : IsOpen p s) (hname : IsPlain name)
    (hsuffix : IsEnding suffix)
    (hq : s.tree.resolve (Path.join s.directory (name ++ suffix)) = .ok q) :
    q = p ∨ q = p.child (name ++ suffix) := by
  refine FileTree.eq_of_resolve_join h.resolve ?_ (isProper_file hsuffix) ?_ hq
  · rcases hsuffix with rfl | rfl <;> simp [hname.no_slash]
  · rcases hsuffix with rfl | rfl <;> simp [hname.no_zero]

/-- Where a file is written. -/
theorem IsOpen.eq_child_of_resolve {suffix : String} (h : IsOpen p s) (hname : IsPlain name)
    (hsuffix : IsEnding suffix)
    (hq : s.tree.resolve (Path.join s.directory (name ++ suffix)) = .ok q)
    (hfile : s.tree.isDirectory q = false) : q = p.child (name ++ suffix) := by
  refine (h.eq_of_resolve hname hsuffix hq).resolve_left ?_
  rintro rfl
  rw [h.isDirectory] at hfile
  cases hfile

/-- The system takes the file of a name. -/
def HasRoom (s : FileStore) (name : String) : Prop :=
  Path.isLongName (name ++ ".yaml") = false ∧ Path.isTooLong (s.filePath name) = false

instance (s : FileStore) (name : String) : Decidable (s.HasRoom name) :=
  inferInstanceAs (Decidable (_ ∧ _))

/-- The path of the file of a plain name leads back to the directory if the path of the directory is
cut short, and otherwise to the file, if the system takes it. -/
theorem IsOpen.resolve_filePath (h : IsOpen p s) (hn : IsPlain n) :
    s.tree.resolve (s.filePath n) =
      if '\x00' ∈ s.directory.toList then .ok p
      else if s.HasRoom n then .ok (p.child (n ++ ".yaml")) else .error .tooLong := by
  have hslash : '/' ∉ (n ++ ".yaml").toList := by simp [hn.no_slash]
  split
  · next hcut =>
    exact FileTree.resolve_join_of_mem h.resolve (Path.isAbsolute_of_not_mem hslash) hcut
  · next hcut =>
    have hzero : '\x00' ∉ (s.filePath n).toList := by
      intro hmem
      rcases Path.mem_of_mem_join hmem with hmem | hmem | hmem
      · exact hcut hmem
      · cases hmem
      · simp [hn.no_zero] at hmem
    cases hlength : Path.isTooLong (s.filePath n) with
    | true => rw [FileTree.resolve, hlength, if_pos rfl, if_neg (by simp [HasRoom, hlength])]
    | false =>
      rw [filePath] at hzero hlength ⊢
      rw [FileTree.resolve_join_eq_step h.resolve hslash hzero hlength]
      have hproper : Path.isProper (n ++ ".yaml") = true := isProper_file (.inl rfl)
      cases hname : Path.isLongName (n ++ ".yaml") with
      | true =>
        rw [if_neg (by simp [HasRoom, hname])]
        simp only [Path.isProper, Bool.and_eq_true, Bool.not_eq_true', bne_iff_ne] at hproper
        simp [FileTree.step, h.isDirectory, hproper.1, hproper.2, hname]
      | false =>
        rw [if_pos ⟨hname, hlength⟩]
        exact FileTree.step_of_isProper h.isDirectory hproper hname

/-! ### Changes to a store -/

/-- **What is read for a name** depends on what stands where its path leads. -/
theorem read_eq_of_lookup_eq [DocumentFormat] (hdirectory : t.directory = s.directory)
    (hdirs : ∀ q, t.tree.isDirectory q = s.tree.isDirectory q)
    (hlookup : ∀ q, s.tree.resolve (s.filePath n) = .ok q → t.tree.lookup q = s.tree.lookup q) :
    t.read n = s.read n := by
  have hpath : t.filePath n = s.filePath n := by rw [filePath, filePath, hdirectory]
  have hresolve : t.tree.resolve (s.filePath n) = s.tree.resolve (s.filePath n) :=
    FileTree.resolve_congr hdirs _
  have hfind : t.tree.find? (s.filePath n) = s.tree.find? (s.filePath n) := by
    rw [FileTree.find?, FileTree.find?, hresolve]
    cases hq : s.tree.resolve (s.filePath n) with
    | error e => rfl
    | ok q => exact hlookup q hq
  have hcontains : t.tree.contains (s.filePath n) = s.tree.contains (s.filePath n) := by
    rw [FileTree.contains, FileTree.contains, hresolve]
    cases hq : s.tree.resolve (s.filePath n) with
    | error e => cases e <;> rfl
    | ok q => simp only [hlookup q hq]
  have hload : t.tree.load? (s.filePath n) = s.tree.load? (s.filePath n) := by
    rw [FileTree.load?, FileTree.load?, FileTree.read?, FileTree.read?, hfind]
  unfold read
  simp only [hpath, hcontains, hload]

/-- Two states of a store differ at some places at most, none of which has become a directory or is
one no more. -/
structure ChangedAt (places : List Place) (s t : FileStore) : Prop where
  directory : t.directory = s.directory
  isDirectory : ∀ q, t.tree.isDirectory q = s.tree.isDirectory q
  lookup : ∀ q, q ∉ places → t.tree.lookup q = s.tree.lookup q

namespace ChangedAt

theorem refl (places : List Place) (s : FileStore) : ChangedAt places s s :=
  ⟨rfl, fun _ => rfl, fun _ _ => rfl⟩

theorem isOpen (h : ChangedAt places s t) (hopen : IsOpen p s) : IsOpen p t where
  resolve := by rw [h.directory, FileTree.resolve_congr h.isDirectory, hopen.resolve]
  isDirectory := by rw [h.isDirectory, hopen.isDirectory]

/-- Where paths lead does not change. -/
theorem resolve_eq (h : ChangedAt places s t) (path : String) :
    t.tree.resolve path = s.tree.resolve path :=
  FileTree.resolve_congr h.isDirectory path

/-- **What is read for a name** whose path leads elsewhere, or nowhere, is read as before. -/
theorem read_congr [DocumentFormat] (h : ChangedAt places s t)
    (hn : ∀ q ∈ places, s.tree.resolve (s.filePath n) ≠ .ok q) : t.read n = s.read n :=
  read_eq_of_lookup_eq h.directory h.isDirectory fun q hq =>
    h.lookup q fun hmem => hn q hmem hq

/-- What is read for a plain name whose file stands elsewhere is read as before. -/
theorem read_eq [DocumentFormat] (h : ChangedAt places s t) (hopen : IsOpen p s) (hn : IsPlain n)
    (hp : p ∉ places) (hfile : p.child (n ++ ".yaml") ∉ places) : t.read n = s.read n := by
  refine h.read_congr fun q hq hresolve => ?_
  have hsuffix : IsEnding ".yaml" := .inl rfl
  rcases hopen.eq_of_resolve hn hsuffix hresolve with rfl | rfl
  · exact hp hq
  · exact hfile hq

end ChangedAt

/-! ### Temporary files -/

/-- The places of temporary files, in the directory of the store and elsewhere. -/
def IsDraft (q : Place) : Prop := ∃ parent name, q = Place.child parent (name ++ ".yaml.tmp")

theorem isDraft_of_resolve (hzero : '\x00' ∉ (s.filePath name).toList)
    (h : s.tree.resolve (s.draftPath name) = .ok q) : IsDraft q := by
  obtain ⟨front, hfront⟩ := Path.exists_eq_append_of_join s.directory (name ++ ".yaml.tmp")
  have hpath : s.draftPath name = front ++ name ++ ".yaml.tmp" := by
    rw [draftPath_eq, hfront, String.append_assoc]
  have hwhole : '\x00' ∉ (front ++ name ++ ".yaml.tmp").toList := by
    rw [← hpath, draftPath, String.toList_append, List.mem_append, not_or]
    exact ⟨hzero, by decide⟩
  rw [hpath] at h
  exact FileTree.exists_eq_child_of_resolve_append (by decide)
    (fun x => isProper_file (.inr rfl)) hwhole h

/-- A path that is cut short is that of the file and of the temporary file. -/
theorem resolve_draftPath_of_mem (hzero : '\x00' ∈ (s.filePath name).toList) :
    s.tree.resolve (s.draftPath name) = s.tree.resolve (s.filePath name) :=
  FileTree.resolve_eq_of_terminated_eq (terminated_append_of_mem hzero)

/-- A path that only the directory of the store cuts short leads back to the directory. -/
theorem IsOpen.resolve_filePath_of_mem (h : IsOpen p s) (hn : '\x00' ∉ n.toList)
    (hzero : '\x00' ∈ (s.filePath n).toList) : s.tree.resolve (s.filePath n) = .ok p := by
  have hyaml : '\x00' ∉ (n ++ ".yaml").toList := by simp [hn]
  have hinside : Path.isAbsolute (n ++ ".yaml") = false := by
    refine Bool.eq_false_iff.mpr fun habsolute => ?_
    rw [filePath, Path.join, if_pos (.inl habsolute)] at hzero
    exact hyaml hzero
  have hcut : '\x00' ∈ s.directory.toList := by
    rcases Path.mem_of_mem_join hzero with hmem | hmem | hmem
    · exact hmem
    · cases hmem
    · exact absurd hmem hyaml
  exact FileTree.resolve_join_of_mem h.resolve hinside hcut

/-- **No name is read from a temporary file**, if it is whole, also not one that leads out of the
directory. -/
theorem IsOpen.not_isDraft (h : IsOpen p s) (hn : '\x00' ∉ n.toList)
    (hq : s.tree.resolve (s.filePath n) = .ok q) (hfile : s.tree.isDirectory q = false) :
    ¬ IsDraft q := by
  by_cases hzero : '\x00' ∈ (s.filePath n).toList
  · rw [h.resolve_filePath_of_mem hn hzero] at hq
    cases hq
    rw [h.isDirectory] at hfile
    cases hfile
  · obtain ⟨front, hfront⟩ := Path.exists_eq_append_of_join s.directory (n ++ ".yaml")
    have hpath : s.filePath n = front ++ n ++ ".yaml" := by
      rw [filePath, hfront, String.append_assoc]
    rw [hpath] at hq hzero
    obtain ⟨parent, x, rfl⟩ := FileTree.exists_eq_child_of_resolve_append (by decide)
      (fun x => isProper_file (.inl rfl)) hzero hq
    rintro ⟨parent', name', heq⟩
    have hnames := congrArg (fun q : Place => q.names.head?) heq
    exact file_ne_draft (Option.some.inj hnames)

/-! ### Writes -/

/-- A text that stands in a file makes no other change. -/
theorem changedAt_set {draft : Place} (hdir : s.tree.isDirectory draft = false) (text : String) :
    ChangedAt [draft] s { s with tree := (s.tree.set draft (.file text)).answered } where
  directory := rfl
  isDirectory := FileTree.isDirectory_set_file hdir text
  lookup _ hx := FileTree.lookup_set_of_ne (mt List.mem_singleton.mpr hx)

theorem changedAt_moved {draft file : Place} (hdir : s.tree.isDirectory draft = false)
    (hfile : s.tree.isDirectory file = false) (text : String) :
    ChangedAt [draft, file] s { s with tree := s.tree.moved draft file text } where
  directory := rfl
  isDirectory := FileTree.isDirectory_moved hdir hfile text
  lookup x hx := by
    simp only [List.mem_cons, List.not_mem_nil, or_false, not_or] at hx
    exact FileTree.lookup_moved_of_ne hx.1 hx.2 text

variable [DocumentFormat]

/-- The courses of a write: nothing happens; or the temporary file stays behind without a text, be
it a file of its own or not; or it stays behind beside the file; or it takes the place of the file.
-/
inductive WriteCourse (r : ClusterOperator) (s : FileStore) : Prop
  | kept (fault : StoreFault) (hrun : write r s = (.error fault, s))
  | emptied (draft : Place) (t : FileStore)
      (hdraft : s.tree.resolve (s.draftPath r.name) = .ok draft)
      (hdir : s.tree.isDirectory draft = false) (hdisk : true ∈ s.tree.refusals)
      (hrun : write r s = (.error (.store (.cannotWrite (s.draftPath r.name))), t))
      (hempty : t.tree.lookup draft = some (.file "")) (hchanged : ChangedAt [draft] s t)
  | leftBeside (fault : StoreFault) (draft : Place) (t : FileStore)
      (hdraft : s.tree.resolve (s.draftPath r.name) = .ok draft)
      (hdir : s.tree.isDirectory draft = false)
      (hfile : s.tree.resolve (s.filePath r.name) ≠ .ok draft)
      (hrun : write r s = (.error fault, t)) (hchanged : ChangedAt [draft] s t)
  | replaced (draft file : Place) (t : FileStore)
      (hdraft : s.tree.resolve (s.draftPath r.name) = .ok draft)
      (hdir : s.tree.isDirectory draft = false)
      (hfile : s.tree.resolve (s.filePath r.name) = .ok file)
      (hfiled : s.tree.isDirectory file = false)
      (hrun : write r s = (.ok (), t)) (hchanged : ChangedAt [draft, file] s t)

/-- **What a write changes**, by its courses. -/
theorem writeCourse (r : ClusterOperator) (s : FileStore) : WriteCourse r s := by
  cases htext : DocumentFormat.write? r.encode with
  | none => exact .kept _ (write_of_eq_none htext s)
  | some text =>
    have hwrite := write_eq_writeText htext s
    cases textCourse_writeText r.name s with
    | notOpened hcourse => exact .kept _ (hwrite.trans (hcourse _))
    | refused draft hdraft hdir hdisk hcourse =>
      exact .emptied draft _ hdraft hdir hdisk (hwrite.trans (hcourse _))
        (FileTree.lookup_set_self (FileTree.isStanding_eq_false hdir)) (changedAt_set hdir _)
    | notRenamed draft cause hdraft hdir hfile hcourse =>
      exact .leftBeside _ draft _ hdraft hdir hfile (hwrite.trans (hcourse _))
        (changedAt_set hdir _)
    | renamed draft file hdraft hdir hfile hfiled hcourse =>
      exact .replaced draft file _ hdraft hdir hfile hfiled (hwrite.trans (hcourse _))
        (changedAt_moved hdir hfiled _)

/-- A write under a plain name changes the file and the temporary file of its name at most, and the
file only if it succeeds. -/
theorem IsOpen.changedAt_write (h : IsOpen p s) (hname : IsPlain r.name) :
    (∃ fault t, write r s = (.error fault, t) ∧
      ChangedAt [p.child (r.name ++ ".yaml.tmp")] s t) ∨
    ∃ t, write r s = (.ok (), t) ∧
      ChangedAt [p.child (r.name ++ ".yaml.tmp"), p.child (r.name ++ ".yaml")] s t := by
  have hdrafted {draft : Place} (hdraft : s.tree.resolve (s.draftPath r.name) = .ok draft)
      (hdir : s.tree.isDirectory draft = false) :
      draft = p.child (r.name ++ ".yaml.tmp") := by
    have hsuffix : IsEnding ".yaml.tmp" := .inr rfl
    rw [draftPath_eq] at hdraft
    exact h.eq_child_of_resolve hname hsuffix hdraft hdir
  cases writeCourse r s with
  | kept fault hrun => exact .inl ⟨fault, s, hrun, .refl _ s⟩
  | emptied draft t hdraft hdir _ hrun _ hchanged =>
    exact .inl ⟨_, t, hrun, hdrafted hdraft hdir ▸ hchanged⟩
  | leftBeside fault draft t hdraft hdir _ hrun hchanged =>
    exact .inl ⟨fault, t, hrun, hdrafted hdraft hdir ▸ hchanged⟩
  | replaced draft file t hdraft hdir hfile hfiled hrun hchanged =>
    have hsuffix : IsEnding ".yaml" := .inl rfl
    rw [← hdrafted hdraft hdir, ← h.eq_child_of_resolve hname hsuffix hfile hfiled]
    exact .inr ⟨t, hrun, hchanged⟩

end FileStore

end OperatorHealth

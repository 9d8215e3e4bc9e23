import OperatorHealth.Proofs.Files.Tree
import OperatorHealth.Proofs.Resource.Codec
import OperatorHealth.Proofs.Store.Recall
import OperatorHealth.Store.File

/-!
# Stores in a directory recall what was written

A resource that was written stands in the file for its name, because the temporary file was renamed
to it; its text is read back as its document, if the format is lawful; and the document stands for
the resource, with its times to the second.

## Main definitions

* `FileStore.TextCourse`: the courses of putting a text into a file.

## Main results

* `FileStore.textCourse_writeText`: what becomes of a text.
* `FileStore.read_of_write`: what was written is read back.
* `FileStore.recallingStore`: a store in a directory recalls what was written.
-/

namespace OperatorHealth

namespace FileStore

variable {s t : FileStore} {r : ClusterOperator}

/-! ### Texts -/

section Steps

variable {name text : String} {u v : FileTree}

theorem writeText_of_not_opened
    (hwrite : s.tree.write (s.draftPath name) text = (.error .cannotOpen, u)) :
    s.writeText name text =
      (.error (.store (.cannotOpen (s.draftPath name))), { s with tree := u }) := by
  unfold writeText
  simp only [hwrite]

theorem writeText_of_refused
    (hwrite : s.tree.write (s.draftPath name) text = (.error .refused, u)) :
    s.writeText name text =
      (.error (.store (.cannotWrite (s.draftPath name))), { s with tree := u }) := by
  unfold writeText
  simp only [hwrite]

theorem writeText_of_not_renamed {cause : FileTree.RenameError}
    (hwrite : s.tree.write (s.draftPath name) text = (.ok (), u))
    (hrename : u.rename? (s.draftPath name) (s.filePath name) = .error cause) :
    s.writeText name text =
      (.error (.store (.cannotReplace (s.filePath name) cause)), { s with tree := u }) := by
  unfold writeText
  simp only [hwrite, hrename]

theorem writeText_of_renamed (hwrite : s.tree.write (s.draftPath name) text = (.ok (), u))
    (hrename : u.rename? (s.draftPath name) (s.filePath name) = .ok v) :
    s.writeText name text = (.ok (), { s with tree := v }) := by
  unfold writeText
  simp only [hwrite, hrename]

end Steps

/-- The courses of putting a text into the file for a name: the temporary file cannot be opened, and
everything is as it was; or the disk refuses the text, and the temporary file stays behind without
it; or it stays behind with the text, because it cannot be renamed; or it is renamed to the file. -/
inductive TextCourse (name : String) (s : FileStore) : Prop
  | notOpened (hcourse : ∀ text, s.writeText name text =
      (.error (.store (.cannotOpen (s.draftPath name))), s))
  | refused (draft : Place) (hdraft : s.tree.resolve (s.draftPath name) = .ok draft)
      (hdir : s.tree.isDirectory draft = false) (hdisk : true ∈ s.tree.refusals)
      (hcourse : ∀ text, s.writeText name text =
        (.error (.store (.cannotWrite (s.draftPath name))),
          { s with tree := (s.tree.set draft (.file "")).answered }))
  | notRenamed (draft : Place) (cause : FileTree.RenameError)
      (hdraft : s.tree.resolve (s.draftPath name) = .ok draft)
      (hdir : s.tree.isDirectory draft = false)
      (hfile : s.tree.resolve (s.filePath name) ≠ .ok draft)
      (hcourse : ∀ text, s.writeText name text =
        (.error (.store (.cannotReplace (s.filePath name) cause)),
          { s with tree := (s.tree.set draft (.file text)).answered }))
  | renamed (draft file : Place) (hdraft : s.tree.resolve (s.draftPath name) = .ok draft)
      (hdir : s.tree.isDirectory draft = false)
      (hfile : s.tree.resolve (s.filePath name) = .ok file)
      (hfiled : s.tree.isDirectory file = false)
      (hcourse : ∀ text, s.writeText name text =
        (.ok (), { s with tree := s.tree.moved draft file text }))

/-- **Which course it takes** is settled by the name, whatever the text. -/
theorem textCourse_writeText (name : String) (s : FileStore) : TextCourse name s := by
  cases hopen : s.tree.open? (s.draftPath name) with
  | none =>
    exact .notOpened fun text => writeText_of_not_opened (by simp only [FileTree.write, hopen])
  | some draft =>
    obtain ⟨hdraft, hdir⟩ := FileTree.open?_eq_some_iff.mp hopen
    rcases FileTree.write_of_open? hopen with ⟨hdisk, hwrite⟩ | hwrite
    · exact .refused draft hdraft hdir hdisk fun text => writeText_of_refused (hwrite text)
    · have hrename (text : String) := FileTree.rename?_set_file hdraft hdir text (s.filePath name)
      cases hfile : s.tree.resolve (s.filePath name) with
      | error e =>
        simp only [hfile] at hrename
        exact .notRenamed draft .noSuchFile hdraft hdir (by simp [hfile])
          fun text => writeText_of_not_renamed (hwrite text) (hrename text)
      | ok file =>
        cases hfiled : s.tree.isDirectory file with
        | true =>
          simp only [hfile, hfiled, if_true] at hrename
          refine .notRenamed draft .isDirectory hdraft hdir ?_
            fun text => writeText_of_not_renamed (hwrite text) (hrename text)
          rw [hfile]
          rintro ⟨⟩
          rw [hdir] at hfiled
          cases hfiled
        | false =>
          simp only [hfile, hfiled, Bool.false_eq_true, if_false] at hrename
          exact .renamed draft file hdraft hdir hfile hfiled
            fun text => writeText_of_renamed (hwrite text) (hrename text)

/-! ### Writes -/

variable [DocumentFormat]

/-- A resource that has a text is written as that text. -/
theorem write_eq_writeText {text : String} (h : DocumentFormat.write? r.encode = some text)
    (s : FileStore) : write r s = s.writeText r.name (text ++ "\n") := by
  simp only [write, h]

theorem write_of_eq_none (h : DocumentFormat.write? r.encode = none) (s : FileStore) :
    write r s = (.error (.store (.cannotEncode r.name)), s) := by
  simp only [write, h]

/-- Every resource has a text in a lawful format. -/
theorem exists_write?_encode [LawfulDocumentFormat] (r : ClusterOperator) :
    ∃ text, DocumentFormat.write? r.encode = some text :=
  Option.isSome_iff_exists.mp (LawfulDocumentFormat.isSome_write? _ r.hasTextKeys_encode)

/-- What is written takes the place of what was at the end of the path, by way of the temporary
file. -/
theorem exists_moved_of_write (h : write r s = (.ok (), t)) : ∃ text draft file,
    DocumentFormat.write? r.encode = some text ∧
    s.tree.resolve (s.draftPath r.name) = .ok draft ∧ s.tree.isDirectory draft = false ∧
    s.tree.resolve (s.filePath r.name) = .ok file ∧ s.tree.isDirectory file = false ∧
    t = { s with tree := s.tree.moved draft file (text ++ "\n") } := by
  cases htext : DocumentFormat.write? r.encode with
  | none =>
    rw [write_of_eq_none htext] at h
    cases h
  | some text =>
    rw [write_eq_writeText htext] at h
    cases textCourse_writeText r.name s with
    | notOpened hcourse => cases (hcourse _).symm.trans h
    | refused _ _ _ _ hcourse => cases (hcourse _).symm.trans h
    | notRenamed _ _ _ _ _ hcourse => cases (hcourse _).symm.trans h
    | renamed draft file hdraft hdir hfile hfiled hcourse =>
      cases (hcourse _).symm.trans h
      exact ⟨text, draft, file, rfl, hdraft, hdir, hfile, hfiled, rfl⟩

/-- A resource is read from its text in the file of a name, with times to the second. -/
theorem read_of_lookup {name text : String} {q : Place}
    (hresolve : s.tree.resolve (s.filePath name) = .ok q)
    (hlookup : s.tree.lookup q = some (.file text))
    (htext : DocumentFormat.read? text = some r.encode) :
    s.read name = .ok { r with status := r.status.mapTimes Instant.truncate } := by
  have hcontains : s.tree.contains (s.filePath name) = .ok true := by
    simp [FileTree.contains, hresolve, hlookup]
  have hload : s.tree.load? (s.filePath name) = .ok r.encode :=
    FileTree.load?_of_lookup hresolve hlookup htext
  unfold read
  simp only [hcontains, hload, ClusterOperator.decode_encode]

/-- What is written to the file of a name is read back, with times to the second. -/
theorem read_of_write [LawfulDocumentFormat] (h : write r s = (.ok (), t)) :
    t.read r.name = .ok { r with status := r.status.mapTimes Instant.truncate } := by
  obtain ⟨text, draft, file, htext, -, hdir, hfile, hfiled, rfl⟩ := exists_moved_of_write h
  refine read_of_lookup ?_ (FileTree.lookup_moved_self hfiled _)
    (LawfulDocumentFormat.read?_of_write? htext)
  exact (FileTree.resolve_congr (FileTree.isDirectory_moved hdir hfiled _) _).trans hfile

/-! ### Calls -/

theorem get_eq (name : String) (s : FileStore) : ResourceStore.get name s = (s.read name, s) := rfl

/-- A resource is not found only if nothing stands where its file goes. -/
theorem contains_of_read_notFound {name n : String}
    (h : s.read name = .error (.store (.notFound n))) :
    s.tree.contains (s.filePath name) = .ok false := by
  unfold read at h
  split at h
  · cases h
  · next hcontains => exact hcontains
  · split at h
    · cases h
    · split at h <;> cases h

theorem create_of_contains (h : s.tree.contains (s.filePath r.name) = .ok true) :
    ResourceStore.create r s = (.error (.store (.alreadyExists r.name)), s) := by
  change create r s = _
  unfold create
  simp only [h]

theorem create_of_not_contains (h : s.tree.contains (s.filePath r.name) = .ok false) :
    ResourceStore.create r s = write r s := by
  change create r s = _
  unfold create
  simp only [h]

theorem replaceStatus_of_error {fault : StoreFault} (h : s.read r.name = .error fault) :
    ResourceStore.replaceStatus r s = (.error fault, s) := by
  change replaceStatus r s = _
  unfold replaceStatus
  simp only [h]

theorem replaceStatus_of_ok {old : ClusterOperator} (h : s.read r.name = .ok old) :
    ResourceStore.replaceStatus r s = write { old with status := r.status } s := by
  change replaceStatus r s = _
  unfold replaceStatus
  simp only [h]

theorem write_of_create (h : ResourceStore.create r s = (.ok (), t)) : write r s = (.ok (), t) := by
  have hcreate : create r s = (.ok (), t) := h
  unfold create at hcreate
  split at hcreate
  · simp at hcreate
  · simp at hcreate
  · exact hcreate

theorem write_of_replaceStatus {old : ClusterOperator} {status : ResourceStatus}
    (hold : s.read old.name = .ok old)
    (h : ResourceStore.replaceStatus { old with status } s = (.ok (), t)) :
    write { old with status } s = (.ok (), t) :=
  (replaceStatus_of_ok (r := { old with status }) hold).symm.trans h

/-- A store in a directory gives back what was written to it, with times to the second. -/
theorem recallingStore [LawfulDocumentFormat] (name : String) :
    RecallingStore FileStore name Instant.truncate where
  get_keeps h := by
    rw [get_eq] at h
    exact (Prod.mk.inj h).2.symm
  get_create _ hcreate := by rw [get_eq, read_of_write (write_of_create hcreate)]
  get_replaceStatus {s t old status} hget hname hupdate := by
    subst hname
    rw [get_eq] at hget
    have hwrite := write_of_replaceStatus (Prod.mk.inj hget).1 hupdate
    rw [get_eq, read_of_write hwrite]

end FileStore

end OperatorHealth

import OperatorHealth.Proofs.Files.Path
import OperatorHealth.Store.File

/-!
# The files of a store in a directory

The file of a resource and its temporary file stand in the directory of the store, at places that
tell their names apart, if the name is one that the system takes: without a slash or a zero
character, and with room for the longer of the two endings.

## Main definitions

* `FileStore.Accepts`: the names whose files the system takes.
* `FileStore.IsEnding`: what the names of files end with.

## Main results

* `FileStore.file_injective`, `FileStore.file_ne_draft`: different names have different files.
* `FileStore.Accepts.resolve_eq`: where the paths of files lead.
-/

namespace OperatorHealth

/-- The system takes the file and the temporary file of a name in a directory. -/
structure FileStore.Accepts (directory name : String) : Prop where
  no_slash : '/' ∉ name.toList
  no_zero : '\x00' ∉ directory.toList ∧ '\x00' ∉ name.toList
  short_name : Path.isLongName (name ++ ".yaml.tmp") = false
  short_path : Path.isTooLong (Path.join directory (name ++ ".yaml.tmp")) = false

instance (directory name : String) : Decidable (FileStore.Accepts directory name) :=
  decidable_of_iff ('/' ∉ name.toList ∧ ('\x00' ∉ directory.toList ∧ '\x00' ∉ name.toList) ∧
      Path.isLongName (name ++ ".yaml.tmp") = false ∧
      Path.isTooLong (Path.join directory (name ++ ".yaml.tmp")) = false)
    ⟨fun h => ⟨h.1, h.2.1, h.2.2.1, h.2.2.2⟩,
      fun h => ⟨h.no_slash, h.no_zero, h.short_name, h.short_path⟩⟩

namespace FileStore

variable {directory name suffix : String} {t : FileTree} {p : Place}

/-! ### The names of files -/

/-- What the names of files of resources end with, and those of temporary files. -/
def IsEnding (suffix : String) : Prop := suffix = ".yaml" ∨ suffix = ".yaml.tmp"

/-- The name of a file is longer than those that do not lead further down. -/
theorem file_ne {x : String} (hsuffix : IsEnding suffix) (hx : x.length < 5) :
    name ++ suffix ≠ x := by
  rintro rfl
  have hlength : 5 ≤ suffix.length := by
    rcases hsuffix with rfl | rfl <;> decide
  rw [String.length_append] at hx
  omega

theorem isProper_file (hsuffix : IsEnding suffix) : Path.isProper (name ++ suffix) = true := by
  have hempty : name ++ suffix ≠ "" := file_ne hsuffix (by decide)
  have hdot : name ++ suffix ≠ "." := file_ne hsuffix (by decide)
  have hup : name ++ suffix ≠ ".." := file_ne hsuffix (by decide)
  rw [Path.isProper, Path.isHere, beq_false_of_ne hempty, beq_false_of_ne hdot,
    bne_iff_ne.mpr hup]
  rfl

theorem file_injective {name' : String} (h : name ++ ".yaml" = name' ++ ".yaml") :
    name = name' := by
  have hlist := congrArg String.toList h
  rw [String.toList_append, String.toList_append] at hlist
  exact String.toList_inj.mp (List.append_cancel_right hlist)

/-- No file of a resource is a temporary file. -/
theorem file_ne_draft {name' : String} : name ++ ".yaml" ≠ name' ++ ".yaml.tmp" := by
  intro h
  have hlast := congrArg (fun x : String => x.toList.getLast?) h
  simp at hlast

/-! ### Their paths -/

/-- The path of the temporary file is a path into the directory as well. -/
theorem draftPath_eq (s : FileStore) (name : String) :
    s.draftPath name = Path.join s.directory (name ++ ".yaml.tmp") := by
  rw [draftPath, filePath, Path.join_append (file_ne (.inl rfl) (by decide)), String.append_assoc]
  rfl

namespace Accepts

theorem no_slash_file (h : Accepts directory name)
    (hsuffix : IsEnding suffix) : '/' ∉ (name ++ suffix).toList := by
  rcases hsuffix with rfl | rfl <;> simp [h.no_slash]

theorem no_zero_path (h : Accepts directory name)
    (hsuffix : IsEnding suffix) :
    '\x00' ∉ (Path.join directory (name ++ suffix)).toList := by
  intro hmem
  have hname : '\x00' ∉ (name ++ suffix).toList := by
    rcases hsuffix with rfl | rfl <;> simp [h.no_zero.2]
  rcases Path.mem_of_mem_join hmem with hmem | hmem | hmem
  · exact h.no_zero.1 hmem
  · cases hmem
  · exact hname hmem

/-- The file has a shorter name and a shorter path than the temporary file. -/
theorem short_file (h : Accepts directory name)
    (hsuffix : IsEnding suffix) :
    Path.isLongName (name ++ suffix) = false ∧
      Path.isTooLong (Path.join directory (name ++ suffix)) = false := by
  rcases hsuffix with rfl | rfl
  · have hdraft : name ++ ".yaml.tmp" = name ++ ".yaml" ++ ".tmp" := by
      rw [String.append_assoc]
      rfl
    have hname := h.short_name
    have hpath := h.short_path
    have hzero := h.no_zero_path (.inr rfl)
    rw [hdraft] at hname hpath hzero
    rw [← Path.join_append (file_ne (.inl rfl) (by decide))] at hpath hzero
    simp only [Path.isLongName, Path.isTooLong, terminated_eq_self hzero,
      terminated_eq_self (h.no_zero_path (.inl rfl)), String.utf8ByteSize_append,
      decide_eq_false_iff_not] at hname hpath ⊢
    omega
  · exact ⟨h.short_name, h.short_path⟩

/-- The path of a file leads to the place of its name in the directory. -/
theorem resolve_eq (h : Accepts directory name) (hdirectory : t.resolve directory = .ok p)
    (hp : t.isDirectory p = true) (hsuffix : IsEnding suffix) :
    t.resolve (Path.join directory (name ++ suffix)) = .ok (p.child (name ++ suffix)) :=
  FileTree.resolve_join hdirectory hp (h.no_slash_file hsuffix) (isProper_file hsuffix)
    (h.short_file hsuffix).1 (h.no_zero_path hsuffix) (h.short_file hsuffix).2

end Accepts

end FileStore

end OperatorHealth

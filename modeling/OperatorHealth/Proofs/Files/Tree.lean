import OperatorHealth.Files.Load

/-!
# Files that are written and renamed

Writing a file and renaming it change what stands at their own places, and make or remove no
directory. So every path leads where it led before, and a text that was written to one path and
renamed to another stands at the end of the other one.

## Main results

* `FileTree.resolve_congr`: where paths lead depends on the directories alone.
* `FileTree.isDirectory_set_file`, `FileTree.isDirectory_erase`, `FileTree.isDirectory_moved`: what
  is done to a file leaves the directories alone.
* `FileTree.open?_eq_some_iff`, `FileTree.write_of_open?`: a text is written or refused.
* `FileTree.rename?_set_file`: a file that was written is renamed.
* `FileTree.load?_of_lookup`: the document in a file.
* `FileTree.lookup_child_of_list_eq_nil`: nothing stands in a directory that lists no names.
-/

namespace OperatorHealth

namespace FileTree

variable {t u v : FileTree} {p q : Place} {e : FileEntry} {text path source target : String}

/-! ### Places -/

theorem isStanding_eq_false (h : t.isDirectory p = false) : p.isStanding = false := by
  cases hp : p.isStanding with
  | false => rfl
  | true => simp [isDirectory, lookup, hp] at h

theorem find?_entries_erase (t : FileTree) (hne : q ≠ p) :
    (t.erase p).entries.find? (·.1 == q) = t.entries.find? (·.1 == q) := by
  rw [erase, List.find?_filter]
  congr 1
  funext x
  by_cases hx : x.1 = q <;> simp [hx, hne]

theorem lookup_erase_self (hp : p.isStanding = false) : (t.erase p).lookup p = none := by
  have hnone : (t.erase p).entries.find? (·.1 == p) = none := by simp [erase]
  simp [lookup, hp, hnone]

theorem lookup_erase_of_ne (hne : q ≠ p) : (t.erase p).lookup q = t.lookup q := by
  rw [lookup, lookup, find?_entries_erase t hne]

theorem lookup_set_self (hp : p.isStanding = false) : (t.set p e).lookup p = some e := by
  simp [lookup, set, hp]

theorem lookup_set_of_ne (hne : q ≠ p) : (t.set p e).lookup q = t.lookup q := by
  have hfind : (t.set p e).entries.find? (·.1 == q) = t.entries.find? (·.1 == q) := by
    rw [set, List.find?_cons_of_neg (by simpa using hne.symm), find?_entries_erase t hne]
  rw [lookup, lookup, hfind]

/-- What is in a tree does not depend on what the disk will refuse. -/
@[simp] theorem lookup_answered (t : FileTree) (p : Place) : t.answered.lookup p = t.lookup p := rfl

@[simp] theorem isDirectory_answered (t : FileTree) (p : Place) :
    t.answered.isDirectory p = t.isDirectory p := rfl

/-! ### Directories -/

/-- A file in a place that is no directory makes no difference to directories. -/
theorem isDirectory_set_file (h : t.isDirectory p = false) (text : String) (q : Place) :
    (t.set p (.file text)).isDirectory q = t.isDirectory q := by
  by_cases hq : q = p
  · subst hq
    rw [h, isDirectory, lookup_set_self (isStanding_eq_false h)]
    rfl
  · rw [isDirectory, isDirectory, lookup_set_of_ne hq]

theorem isDirectory_erase (h : t.isDirectory p = false) (q : Place) :
    (t.erase p).isDirectory q = t.isDirectory q := by
  by_cases hq : q = p
  · subst hq
    rw [h, isDirectory, lookup_erase_self (isStanding_eq_false h)]
    rfl
  · rw [isDirectory, isDirectory, lookup_erase_of_ne hq]

/-- The tree after a text was written in one place and moved to another. -/
def moved (t : FileTree) (p q : Place) (text : String) : FileTree :=
  ((t.set p (.file text)).answered.erase p).set q (.file text)

/-- Nor does a file that is written in one place and moved to another, if neither is a directory. -/
theorem isDirectory_moved (hp : t.isDirectory p = false) (hq : t.isDirectory q = false)
    (text : String) (x : Place) : (t.moved p q text).isDirectory x = t.isDirectory x := by
  have hdirs := isDirectory_set_file hp text
  have hfile : (t.set p (.file text)).answered.isDirectory p = false := by
    rw [isDirectory_answered, hdirs, hp]
  have hnone : ((t.set p (.file text)).answered.erase p).isDirectory q = false := by
    rw [isDirectory_erase hfile, isDirectory_answered, hdirs, hq]
  rw [moved, isDirectory_set_file hnone, isDirectory_erase hfile, isDirectory_answered, hdirs]

theorem lookup_moved_self (hq : t.isDirectory q = false) (text : String) :
    (t.moved p q text).lookup q = some (.file text) :=
  lookup_set_self (isStanding_eq_false hq)

theorem lookup_moved_of_ne {x : Place} (hp : x ≠ p) (hq : x ≠ q) (text : String) :
    (t.moved p q text).lookup x = t.lookup x := by
  rw [moved, lookup_set_of_ne hq, lookup_erase_of_ne hp, lookup_answered, lookup_set_of_ne hp]

/-- Nothing is left where the text was written at first. -/
theorem lookup_moved_source (hp : t.isDirectory p = false) (hne : p ≠ q) (text : String) :
    (t.moved p q text).lookup p = none := by
  rw [moved, lookup_set_of_ne hne, lookup_erase_self (isStanding_eq_false hp)]

/-- Where a path leads depends on the directories alone. -/
theorem resolve_congr (h : ∀ q, t.isDirectory q = u.isDirectory q) (path : String) :
    t.resolve path = u.resolve path := by
  have hstep : t.step = u.step := by
    funext p name
    rw [step, step, h]
  rw [resolve, resolve, hstep]

@[simp] theorem resolve_answered (t : FileTree) (path : String) :
    t.answered.resolve path = t.resolve path :=
  resolve_congr (fun _ => rfl) path

/-! ### Writing and renaming -/

theorem open?_eq_some_iff :
    t.open? path = some p ↔ t.resolve path = .ok p ∧ t.isDirectory p = false := by
  unfold open?
  cases t.resolve path with
  | error e => simp
  | ok q => cases hq : t.isDirectory q <;> grind

/-- The disk takes a text or refuses it, whatever it says. -/
theorem write_of_open? (h : t.open? path = some p) :
    (true ∈ t.refusals ∧
      ∀ text, t.write path text = (.error .refused, (t.set p (.file "")).answered)) ∨
    ∀ text, t.write path text = (.ok (), (t.set p (.file text)).answered) := by
  cases hdisk : t.refusals.headD false with
  | true =>
    have hmem : true ∈ t.refusals := by
      cases hrefusals : t.refusals <;> simp_all
    exact .inl ⟨hmem, fun text => by simp only [write, h, hdisk, if_true]⟩
  | false => exact .inr fun text => by simp only [write, h, hdisk, Bool.false_eq_true, if_false]

/-- A text that was written is renamed, unless the new path leads nowhere or to a directory. -/
theorem rename?_set_file (hp : t.resolve source = .ok p) (hdir : t.isDirectory p = false)
    (text target : String) : (t.set p (.file text)).answered.rename? source target =
      match t.resolve target with
      | .ok q => if t.isDirectory q then .error .isDirectory else .ok (t.moved p q text)
      | .error _ => .error .noSuchFile := by
  have hdirs := isDirectory_set_file hdir text
  rw [rename?, resolve_answered, resolve_answered, resolve_congr hdirs, resolve_congr hdirs, hp]
  cases t.resolve target with
  | error e => rfl
  | ok q =>
    simp only [lookup_answered, lookup_set_self (isStanding_eq_false hdir), isDirectory_answered,
      hdirs]
    rfl

/-! ### Documents in files -/

section Load

variable [DocumentFormat]

/-- The document in the text of a file. -/
theorem load?_of_lookup {d : Document} (hpath : t.resolve path = .ok p)
    (hp : t.lookup p = some (.file text)) (htext : DocumentFormat.read? text = some d) :
    t.load? path = .ok d := by
  simp [load?, read?, find?, hpath, hp, htext, Except.toOption]

end Load

end FileTree

/-! ### What a directory holds -/

namespace Place

variable {p : Place} {name name' : String}

theorem child_inj : p.child name = p.child name' ↔ name = name' := by
  simp [child]

/-- A place in a directory is none of those that are always there. -/
theorem isStanding_child (hup : name ≠ "..") (hroot : name ≠ "/") :
    (p.child name).isStanding = false := by
  simp [isStanding, child, root, ofNames, hup, hroot]

theorem parent_child (hup : name ≠ "..") (hroot : name ≠ "/") : (p.child name).parent = p := by
  obtain ⟨depth, names, rfl⟩ := p
  simp [parent, child, hup, hroot, root, ofNames]

end Place

/-- Nothing stands in a directory that lists no names. -/
theorem FileTree.lookup_child_of_list_eq_nil {t : FileTree} {path name : String} {p : Place}
    (hpath : t.resolve path = .ok p) (hlist : t.list path = []) (hup : name ≠ "..")
    (hroot : name ≠ "/") : t.lookup (p.child name) = none := by
  rw [lookup, Place.isStanding_child hup hroot, if_neg Bool.false_ne_true, Option.map_eq_none_iff,
    List.find?_eq_none]
  intro e he hplace
  have hmem : name ∈ t.list path := by
    simp only [list, hpath, List.mem_mergeSort, List.mem_filterMap]
    refine ⟨e, he, ?_⟩
    rw [beq_iff_eq.mp hplace, if_pos (Place.parent_child hup hroot)]
    rfl
  rw [hlist] at hmem
  cases hmem

end OperatorHealth

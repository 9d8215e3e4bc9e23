import Mathlib.Data.List.TakeWhile
import OperatorHealth.Proofs.Files.Tree

/-!
# Paths into a directory

A name without slashes, seen from a directory, is one name further from where the path of the
directory leads. It makes no difference whether the path of the directory ends with a slash. A name
with slashes, seen from a directory, is one without them seen from another directory.

## Main results

* `Path.split_append_slash`, `Path.split_of_not_mem`: the names around a slash, and in a text
  without one.
* `Path.components_join`: the names in a path into a directory.
* `FileTree.resolve_join`, `FileTree.eq_of_resolve_join`: where a path into a directory leads.
* `FileTree.exists_eq_child_of_resolve_append`: what the place is called that a path leads to.
* `Path.join_append_slash`, `FileTree.exists_isDirectory_of_resolve`: names with slashes.
-/

namespace OperatorHealth

variable {directory name suffix : String}

/-- What follows a zero character does not count. -/
theorem terminated_append_of_mem {s t : String} (h : '\x00' ∈ s.toList) :
    terminated (s ++ t) = terminated s := by
  obtain ⟨before, after, hs, hbefore⟩ := List.eq_append_cons_of_mem h
  have hkept : ∀ c ∈ before, (c != '\x00') = true := by
    intro c hc
    have hne : c ≠ '\x00' := fun heq => hbefore (heq ▸ hc)
    simpa using hne
  rw [← String.toList_inj]
  simp [hs, List.takeWhile_append_of_pos hkept]

/-- Nor does it count at the end of another text. -/
theorem terminated_append_terminated (s t : String) :
    terminated (s ++ terminated t) = terminated (s ++ t) := by
  rw [← String.toList_inj]
  simp [List.takeWhile_append, List.takeWhile_idem]

/-! ### The names in a path -/

namespace Path

theorem split_ne_nil (cs : List Char) : split cs ≠ [] := by
  cases cs with
  | nil => simp [split]
  | cons c cs =>
    rw [split]
    split
    · simp
    · split <;> simp

/-- A slash parts the names before it from those behind it. -/
theorem split_append_slash (cs ds : List Char) :
    split (cs ++ '/' :: ds) = split cs ++ split ds := by
  induction cs with
  | nil => simp [split]
  | cons c cs ih =>
    rw [List.cons_append, split, split]
    by_cases hc : c = '/'
    · rw [if_pos hc, if_pos hc, ih, List.cons_append]
    · rw [if_neg hc, if_neg hc, ih]
      cases hcs : split cs with
      | nil => exact absurd hcs (split_ne_nil cs)
      | cons w ws => rfl

/-- A name has no slash, and the characters of the text. -/
theorem mem_split {cs w : List Char} (h : w ∈ split cs) : '/' ∉ w ∧ w ⊆ cs := by
  induction cs generalizing w with
  | nil =>
    rw [split, List.mem_singleton] at h
    subst h
    exact ⟨List.not_mem_nil, List.Subset.refl _⟩
  | cons c cs ih =>
    rw [split] at h
    by_cases hc : c = '/'
    · rw [if_pos hc] at h
      rcases List.mem_cons.mp h with rfl | h
      · exact ⟨List.not_mem_nil, List.nil_subset _⟩
      · exact ⟨(ih h).1, List.subset_cons_of_subset c (ih h).2⟩
    · rw [if_neg hc] at h
      cases hcs : split cs with
      | nil => exact absurd hcs (split_ne_nil cs)
      | cons v vs =>
        rw [hcs] at h ih
        rcases List.mem_cons.mp h with rfl | h
        · have hv := ih List.mem_cons_self
          exact ⟨by simp [hv.1, Ne.symm hc], List.cons_subset_cons c hv.2⟩
        · have hw := ih (List.mem_cons_of_mem v h)
          exact ⟨hw.1, List.subset_cons_of_subset c hw.2⟩

theorem split_of_not_mem {cs : List Char} (h : '/' ∉ cs) : split cs = [cs] := by
  induction cs with
  | nil => rfl
  | cons c cs ih =>
    rw [List.mem_cons, not_or] at h
    rw [split, if_neg (Ne.symm h.1), ih h.2]

/-- A text without slashes at the end of another one belongs to its last name. -/
theorem exists_split_append_of_not_mem (cs : List Char) {ds : List Char} (h : '/' ∉ ds) :
    ∃ front last, split (cs ++ ds) = front ++ [last ++ ds] := by
  induction cs with
  | nil => exact ⟨[], [], split_of_not_mem h⟩
  | cons c cs ih =>
    obtain ⟨front, last, ih⟩ := ih
    rw [List.cons_append, split, ih]
    by_cases hc : c = '/'
    · exact ⟨[] :: front, last, if_pos hc⟩
    · rw [if_neg hc]
      cases front with
      | nil => exact ⟨[], c :: last, rfl⟩
      | cons w front => exact ⟨(c :: w) :: front, last, rfl⟩

theorem exists_components_append (text : String) (h : '/' ∉ suffix.toList) :
    ∃ front last, components (text ++ suffix) = front ++ [last ++ suffix] := by
  obtain ⟨front, last, hsplit⟩ := exists_split_append_of_not_mem text.toList h
  refine ⟨front.map String.ofList, String.ofList last, ?_⟩
  rw [components, String.toList_append, hsplit, List.map_append, List.map_singleton,
    String.ofList_append, String.ofList_toList]

theorem components_of_not_mem (h : '/' ∉ name.toList) : components name = [name] := by
  rw [components, split_of_not_mem h, List.map_singleton, String.ofList_toList]

/-- A slash parts the names before it from those behind it. -/
theorem components_append_slash (text name : String) :
    components (text ++ "/" ++ name) = components text ++ components name := by
  have hlist : (text ++ "/" ++ name).toList = text.toList ++ '/' :: name.toList := by simp
  rw [components, hlist, split_append_slash, List.map_append]
  rfl

/-! ### Paths into a directory -/

theorem isAbsolute_of_not_mem (h : '/' ∉ name.toList) : isAbsolute name = false := by
  rw [isAbsolute, beq_eq_false_iff_ne]
  exact fun hhead => h (List.mem_of_mem_head? hhead)

theorem isAbsolute_append {path : String} (h : path ≠ "") (suffix : String) :
    isAbsolute (path ++ suffix) = isAbsolute path := by
  cases hpath : path.toList with
  | nil => exact absurd (String.toList_eq_nil_iff.mp hpath) h
  | cons c cs => simp [isAbsolute, hpath]

theorem isAbsolute_terminated (path : String) : isAbsolute (terminated path) = isAbsolute path := by
  rw [isAbsolute, isAbsolute, toList_terminated]
  cases path.toList with
  | nil => rfl
  | cons c cs =>
    by_cases hc : c = '\x00'
    · subst hc
      rfl
    · rw [List.takeWhile_cons_of_pos (by simpa using hc)]
      rfl

/-- A text at the end of a path is one at the end of its last name. -/
theorem join_append (hname : name ≠ "") (directory suffix : String) :
    join directory name ++ suffix = join directory (name ++ suffix) := by
  unfold join
  rw [isAbsolute_append hname]
  split
  · rfl
  · split <;> simp [String.append_assoc]

/-- A path into a directory walks through the names in the path of the directory, but for an empty
one at its end, and then through its own name. -/
theorem components_join (hdirectory : directory ≠ "") (hname : '/' ∉ name.toList) :
    ∃ front, components (join directory name) = front ++ [name] ∧
      (components directory = front ∨ components directory = front ++ [""]) := by
  unfold join
  rw [if_neg (by simp [isAbsolute_of_not_mem hname, hdirectory])]
  split
  · next hslash =>
    -- the slash at the end leaves an empty name behind it
    obtain ⟨cs, hcs⟩ := List.getLast?_eq_some_iff.mp hslash
    have hfront : directory = String.ofList cs ++ "/" := by
      rw [← String.toList_inj]
      simpa using hcs
    refine ⟨components (String.ofList cs), ?_, .inr ?_⟩
    · rw [hfront, components_append_slash, components_of_not_mem hname]
    · have hempty := components_append_slash (String.ofList cs) ""
      rw [String.append_empty] at hempty
      rw [hfront, hempty]
      rfl
  · refine ⟨components directory, ?_, .inl rfl⟩
    rw [components_append_slash, components_of_not_mem hname]

theorem isAbsolute_join (hdirectory : directory ≠ "") (hname : '/' ∉ name.toList) :
    isAbsolute (join directory name) = isAbsolute directory := by
  unfold join
  rw [if_neg (by simp [isAbsolute_of_not_mem hname, hdirectory])]
  split
  · exact isAbsolute_append hdirectory name
  · rw [String.append_assoc]
    exact isAbsolute_append hdirectory _

/-- A path into a directory starts with the path of the directory. -/
theorem exists_join_eq_append (hdirectory : directory ≠ "") (hname : isAbsolute name = false) :
    ∃ suffix, join directory name = directory ++ suffix := by
  unfold join
  rw [if_neg (by simp [hname, hdirectory])]
  split
  · exact ⟨name, rfl⟩
  · exact ⟨"/" ++ name, String.append_assoc ..⟩

/-- What is put before a path seen from a directory depends on whether the path is absolute. -/
theorem exists_join_eq (directory : String) (absolute : Bool) :
    ∃ front, ∀ name, isAbsolute name = absolute → join directory name = front ++ name := by
  by_cases hself : absolute = true ∨ directory = ""
  · exact ⟨"", fun name h => by rw [join, if_pos (h ▸ hself), String.empty_append]⟩
  · by_cases hslash : directory.toList.getLast? = some '/'
    · exact ⟨directory, fun name h => by rw [join, if_neg (h ▸ hself), if_pos hslash]⟩
    · exact ⟨directory ++ "/", fun name h => by rw [join, if_neg (h ▸ hself), if_neg hslash]⟩

/-- A path seen from a directory ends with what it is called there. -/
theorem exists_eq_append_of_join (directory name : String) :
    ∃ front, join directory name = front ++ name := by
  obtain ⟨front, hfront⟩ := exists_join_eq directory (isAbsolute name)
  exact ⟨front, hfront name rfl⟩

theorem join_slash (front : String) (hname : '/' ∉ name.toList) :
    join (front ++ "/") name = front ++ "/" ++ name := by
  unfold join
  rw [if_neg (by simp [isAbsolute_of_not_mem hname]), if_pos (by simp)]

/-- A path that goes on behind a slash is one into the directory that it names before the slash. -/
theorem join_append_slash (directory front : String) (hname : '/' ∉ name.toList) :
    join directory (front ++ "/" ++ name) = join (join directory (front ++ "/")) name := by
  have habsolute : isAbsolute (front ++ "/" ++ name) = isAbsolute (front ++ "/") :=
    isAbsolute_append (by simp) name
  obtain ⟨before, hbefore⟩ := exists_join_eq directory (isAbsolute (front ++ "/"))
  rw [hbefore _ habsolute, hbefore _ rfl, ← String.append_assoc, ← String.append_assoc,
    join_slash _ hname]

theorem mem_of_mem_join {c : Char} (h : c ∈ (join directory name).toList) :
    c ∈ directory.toList ∨ c = '/' ∨ c ∈ name.toList := by
  unfold join at h
  split at h
  · exact .inr (.inr h)
  · split at h
    · rw [String.toList_append, List.mem_append] at h
      exact h.imp_right .inr
    · simpa [or_assoc] using h

/-- A path into a directory contains the path of the directory. -/
theorem mem_join (hdirectory : directory ≠ "") (hname : '/' ∉ name.toList) {c : Char}
    (h : c ∈ directory.toList) : c ∈ (join directory name).toList := by
  unfold join
  rw [if_neg (by simp [isAbsolute_of_not_mem hname, hdirectory])]
  split <;> simp [h]

end Path

/-! ### Where a path into a directory leads -/

namespace FileTree

variable {t : FileTree} {p : Place}

/-- A walk through one name more. -/
theorem foldlM_step_append_singleton_iff {q : Place} {names : List String} :
    (names ++ [name]).foldlM t.step p = .ok q ↔
      ∃ r, names.foldlM t.step p = .ok r ∧ t.step r name = .ok q := by
  rw [List.foldlM_append]
  cases names.foldlM t.step p with
  | error e => simp [bind, Except.bind]
  | ok r =>
    change t.step r name >>= pure = .ok q ↔ _
    simp

theorem step_of_isHere {q : Place} (hname : Path.isHere name = true) (h : t.step p name = .ok q) :
    q = p := by
  rw [step, if_pos hname] at h
  split at h
  · exact (Except.ok.inj h).symm
  · cases h

theorem step_of_isProper (hp : t.isDirectory p = true) (hname : Path.isProper name = true)
    (hshort : Path.isLongName name = false) : t.step p name = .ok (p.child name) := by
  simp only [Path.isProper, Bool.and_eq_true, Bool.not_eq_true', bne_iff_ne] at hname
  simp [step, hp, hname.1, hname.2, hshort]

theorem eq_child_of_step {q : Place} (hname : Path.isProper name = true)
    (h : t.step p name = .ok q) : q = p.child name := by
  simp only [Path.isProper, Bool.and_eq_true, Bool.not_eq_true', bne_iff_ne] at hname
  simp only [step, hname.1, hname.2, Bool.false_eq_true, if_false] at h
  split at h
  · split at h
    · cases h
    · exact (Except.ok.inj h).symm
  · cases h

theorem ne_empty_of_resolve (h : t.resolve directory = .ok p) : directory ≠ "" := by
  rintro rfl
  have hempty : terminated "" = "" := by simp [terminated]
  simp [resolve, hempty] at h
  split at h <;> cases h

/-- The system reads a path up to a zero character. -/
theorem resolve_eq_of_terminated_eq {path path' : String}
    (h : terminated path = terminated path') : t.resolve path = t.resolve path' := by
  have hstart : start path = start path' := by
    rw [start, start, ← Path.isAbsolute_terminated path, h, Path.isAbsolute_terminated]
  unfold resolve Path.isTooLong Path.names
  rw [h, hstart]

/-- A path leads to a place whose name ends as the path does. -/
theorem exists_eq_child_of_resolve_append {path : String} {q : Place}
    (hslash : '/' ∉ suffix.toList) (hproper : ∀ x, Path.isProper (x ++ suffix) = true)
    (hzero : '\x00' ∉ (path ++ suffix).toList) (h : t.resolve (path ++ suffix) = .ok q) :
    ∃ parent x, q = Place.child parent (x ++ suffix) := by
  obtain ⟨front, last, hcomponents⟩ := Path.exists_components_append path hslash
  have hwalk : (front ++ [last ++ suffix]).foldlM t.step (start (path ++ suffix)) = .ok q := by
    rw [resolve, Path.names, terminated_eq_self hzero, hcomponents] at h
    split at h
    · cases h
    · split at h
      · cases h
      · exact h
  obtain ⟨parent, -, hstep⟩ := foldlM_step_append_singleton_iff.mp hwalk
  exact ⟨parent, last, eq_child_of_step (hproper last) hstep⟩

/-- Before the last name of a path there is a directory. -/
theorem exists_isDirectory_of_resolve {front : String} {q : Place} (hslash : '/' ∉ name.toList)
    (hzero : '\x00' ∉ (front ++ "/" ++ name).toList)
    (h : t.resolve (front ++ "/" ++ name) = .ok q) :
    ∃ r, t.resolve (front ++ "/") = .ok r ∧ t.isDirectory r = true := by
  have hne : front ++ "/" ≠ "" := by simp
  have hzero' : '\x00' ∉ (front ++ "/").toList := fun hmem =>
    hzero (by rw [String.toList_append]; exact List.mem_append_left _ hmem)
  have hstart : start (front ++ "/" ++ name) = start (front ++ "/") := by
    rw [start, start, Path.isAbsolute_append hne]
  have hcomponents := Path.components_append_slash front ""
  rw [String.append_empty] at hcomponents
  rw [resolve, Path.names, terminated_eq_self hzero, Path.components_append_slash,
    Path.components_of_not_mem hslash, hstart] at h
  split at h
  · cases h
  next hlength =>
  split at h
  · cases h
  obtain ⟨r, hr, hstep⟩ := foldlM_step_append_singleton_iff.mp h
  have hdirectory : t.isDirectory r = true := by
    unfold step at hstep
    split at hstep
    · assumption
    · cases hstep
  refine ⟨r, ?_, hdirectory⟩
  have hshort : Path.isTooLong (front ++ "/") = false := by
    simp only [Path.isTooLong, terminated_eq_self hzero, terminated_eq_self hzero',
      String.utf8ByteSize_append, decide_eq_true_eq, decide_eq_false_iff_not] at hlength ⊢
    omega
  have hhere : t.step r "" = .ok r := by
    rw [step, if_pos hdirectory]
    rfl
  rw [resolve, hshort, if_neg Bool.false_ne_true, terminated_eq_self hzero', if_neg hne,
    Path.names, terminated_eq_self hzero', hcomponents]
  exact foldlM_step_append_singleton_iff.mpr ⟨r, hr, hhere⟩

/-- A path into a directory leads one name further than the path of the directory. -/
theorem resolve_join_eq_step (h : t.resolve directory = .ok p) (hslash : '/' ∉ name.toList)
    (hzero : '\x00' ∉ (Path.join directory name).toList)
    (hlength : Path.isTooLong (Path.join directory name) = false) :
    t.resolve (Path.join directory name) = t.step p name := by
  have hdirectory := ne_empty_of_resolve h
  have hwhole : terminated directory = directory :=
    terminated_eq_self fun hmem => hzero (Path.mem_join hdirectory hslash hmem)
  have hne : Path.join directory name ≠ "" := by
    intro hempty
    obtain ⟨c, hc⟩ := List.exists_mem_of_ne_nil directory.toList (by simpa using hdirectory)
    have hmem := Path.mem_join hdirectory hslash hc
    simp [hempty] at hmem
  obtain ⟨front, hjoin, hcomponents⟩ := Path.components_join hdirectory hslash
  -- an empty name at the end of the path of the directory leads no further
  have hfront : front.foldlM t.step (start directory) = .ok p := by
    have hwalk : (Path.components directory).foldlM t.step (start directory) = .ok p := by
      rw [resolve] at h
      split at h
      · cases h
      · rw [hwhole, if_neg hdirectory, Path.names, hwhole] at h
        exact h
    rcases hcomponents with heq | heq <;> rw [heq] at hwalk
    · exact hwalk
    · obtain ⟨q, hq, hstep⟩ := foldlM_step_append_singleton_iff.mp hwalk
      rw [hq, step_of_isHere rfl hstep]
  have hstart : start (Path.join directory name) = start directory := by
    rw [start, start, Path.isAbsolute_join hdirectory hslash]
  rw [resolve, hlength, if_neg Bool.false_ne_true, terminated_eq_self hzero, if_neg hne, Path.names,
    terminated_eq_self hzero, hjoin, hstart, List.foldlM_append, hfront]
  exact bind_pure (t.step p name)

/-- **A path into a directory leads to a place in the directory.** -/
theorem resolve_join (h : t.resolve directory = .ok p) (hp : t.isDirectory p = true)
    (hslash : '/' ∉ name.toList) (hname : Path.isProper name = true)
    (hshort : Path.isLongName name = false) (hzero : '\x00' ∉ (Path.join directory name).toList)
    (hlength : Path.isTooLong (Path.join directory name) = false) :
    t.resolve (Path.join directory name) = .ok (p.child name) := by
  rw [resolve_join_eq_step h hslash hzero hlength, step_of_isProper hp hname hshort]

/-- A zero character in the path of a directory cuts a path into it short. -/
theorem resolve_join_of_mem (h : t.resolve directory = .ok p)
    (hname : Path.isAbsolute name = false) (hcut : '\x00' ∈ directory.toList) :
    t.resolve (Path.join directory name) = .ok p := by
  have hdirectory := ne_empty_of_resolve h
  obtain ⟨suffix, hsuffix⟩ := Path.exists_join_eq_append hdirectory hname
  rw [hsuffix, resolve_eq_of_terminated_eq (terminated_append_of_mem hcut), h]

/-- A path into a directory leads to the place of its name, if anywhere, or back to the directory if
the path of the directory is cut short by a zero character. -/
theorem eq_of_resolve_join {q : Place} (h : t.resolve directory = .ok p)
    (hslash : '/' ∉ name.toList) (hname : Path.isProper name = true)
    (hzero : '\x00' ∉ name.toList) (hq : t.resolve (Path.join directory name) = .ok q) :
    q = p ∨ q = p.child name := by
  by_cases hcut : '\x00' ∈ directory.toList
  · rw [resolve_join_of_mem h (Path.isAbsolute_of_not_mem hslash) hcut] at hq
    exact .inl (Except.ok.inj hq).symm
  · have hwhole : '\x00' ∉ (Path.join directory name).toList := by
      intro hmem
      rcases Path.mem_of_mem_join hmem with hmem | hmem | hmem
      · exact hcut hmem
      · cases hmem
      · exact hzero hmem
    have hlength : Path.isTooLong (Path.join directory name) = false := by
      cases hlong : Path.isTooLong (Path.join directory name) with
      | false => rfl
      | true =>
        rw [resolve, hlong, if_pos rfl] at hq
        cases hq
    rw [resolve_join_eq_step h hslash hwhole hlength] at hq
    exact .inr (eq_child_of_step hname hq)

end FileTree

end OperatorHealth

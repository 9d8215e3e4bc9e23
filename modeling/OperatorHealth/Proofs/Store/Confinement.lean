import OperatorHealth.Proofs.Store.Failure

/-!
# Where a store in a directory keeps its resources

The file of a plain name is an entry of its own in the directory of the store: calls for the name
read and write this entry and no other, but for the temporary file beside it, and no other plain
name has it. This is so for plain names alone. A name with slashes is looked up as a path from the
directory: what stands before its last slash leads to some directory, which may be any that can be
reached, and in that directory the rest of the name has its file. A zero character ends the name,
and its ending is lost.

## Main definitions

* `FileStore.within`: the store in the directory that a path leads to from that of another one.
* `FileStore.FiledAt`: a resource has got the file of a name in a directory.
* `FileStore.KeepsTo`: calls for a name read and write one file.
* `Place.IsNamed`: places whose names are names of files.

## Main results

* `FileTree.isNamed_of_resolve`: a path leads to a place whose names are names of files.
* `FileStore.keepsTo_of_filePath_eq`: what settles the file that calls for a name keep to.
* `FileStore.isPlain_or_slash_or_zero`: the kinds of names.
* `FileStore.files_confined`: all of this.
-/

namespace OperatorHealth

open FileStore (IsPlain IsOpen ChangedAt IsEnding)

/-! ### Names of files -/

/-- Each name that leads to a place is that of the root, or one of a file in a directory. -/
def Place.IsNamed (p : Place) : Prop := ∀ x ∈ p.names, x = "/" ∨ IsPlain x

namespace Place

variable {p : Place} {name : String}

theorem isNamed_current : current.IsNamed := fun _ h => absurd h List.not_mem_nil

theorem isNamed_root : root.IsNamed := fun _ h => .inl (List.mem_singleton.mp h)

theorem IsNamed.child (h : p.IsNamed) (hname : IsPlain name) : (p.child name).IsNamed := by
  intro x hx
  rcases List.mem_cons.mp hx with rfl | hx
  · exact .inr hname
  · exact h x hx

theorem IsNamed.parent (h : p.IsNamed) : p.parent.IsNamed := by
  have hup : IsPlain ".." := by decide
  obtain ⟨depth, names, hlength⟩ := p
  cases names with
  | nil => exact h.child hup
  | cons x xs =>
    unfold Place.parent
    dsimp only
    split
    · exact h.child hup
    · split
      · exact isNamed_root
      · exact fun y hy => h y (List.mem_cons_of_mem x hy)

end Place

/-- The names in a path are names of files. -/
theorem Path.isPlain_of_mem_names {path name : String} (h : name ∈ names path) : IsPlain name := by
  obtain ⟨w, hw, rfl⟩ := List.mem_map.mp h
  obtain ⟨hslash, hsubset⟩ := mem_split hw
  rw [toList_terminated] at hsubset
  constructor <;> rw [String.toList_ofList]
  · exact hslash
  · intro hzero
    have hkept := List.mem_takeWhile_imp (hsubset hzero)
    exact absurd hkept (by decide)

namespace FileTree

variable {t : FileTree} {p q : Place} {name path : String}

/-- One name further, the names are names of files again. -/
theorem isNamed_of_step (h : p.IsNamed) (hname : IsPlain name) (hstep : t.step p name = .ok q) :
    q.IsNamed := by
  unfold step at hstep
  split at hstep
  · split at hstep
    · cases hstep
      exact h
    · split at hstep
      · cases hstep
        exact h.parent
      · split at hstep
        · cases hstep
        · cases hstep
          exact h.child hname
  · cases hstep

theorem isNamed_of_foldlM {names : List String} (h : p.IsNamed)
    (hnames : ∀ name ∈ names, IsPlain name) (hwalk : names.foldlM t.step p = .ok q) :
    q.IsNamed := by
  induction names generalizing p with
  | nil =>
    cases hwalk
    exact h
  | cons name names ih =>
    rw [List.forall_mem_cons] at hnames
    rw [List.foldlM_cons] at hwalk
    obtain ⟨r, hstep, hwalk⟩ := Except.bind_eq_ok.mp hwalk
    exact ih (isNamed_of_step h hnames.1 hstep) hnames.2 hwalk

/-- **A path leads to a place whose names are names of files.** -/
theorem isNamed_of_resolve (h : t.resolve path = .ok q) : q.IsNamed := by
  unfold resolve at h
  split at h
  · cases h
  · split at h
    · cases h
    · refine isNamed_of_foldlM ?_ (fun _ => Path.isPlain_of_mem_names) h
      unfold start
      split
      · exact Place.isNamed_root
      · exact Place.isNamed_current

end FileTree

namespace FileStore

variable {n m own up directory : String} {p q x : Place} {s t : FileStore} {r : ClusterOperator}

/-- Only a plain name leads to the entry that is called after it. -/
theorem isPlain_of_resolve {path : String}
    (h : s.tree.resolve path = .ok (p.child (n ++ ".yaml"))) : IsPlain n := by
  have hroot : n ++ ".yaml" ≠ "/" := file_ne (.inl rfl) (by decide)
  have hnamed :=
    (FileTree.isNamed_of_resolve h (n ++ ".yaml") List.mem_cons_self).resolve_left hroot
  have hslash := hnamed.no_slash
  have hzero := hnamed.no_zero
  simp only [String.toList_append, List.mem_append, not_or] at hslash hzero
  exact ⟨hslash.1, hzero.1⟩

/-! ### Calls that keep to a file -/

section Calls

variable [DocumentFormat]

/-- From `s` to `t`, the resource got the file of `own` in the directory at `q`, by way of the
temporary file beside it, and nothing else changed. -/
structure FiledAt (q : Place) (own : String) (r : ClusterOperator) (s t : FileStore) : Prop where
  changed : ChangedAt [q.child (own ++ ".yaml.tmp"), q.child (own ++ ".yaml")] s t
  lookup_file : ∃ text, DocumentFormat.write? r.encode = some text ∧
    t.tree.lookup (q.child (own ++ ".yaml")) = some (.file (text ++ "\n"))
  lookup_draft : t.tree.lookup (q.child (own ++ ".yaml.tmp")) = none

/-- Calls for a name read and write the file of `own` in the directory at `q`, and no other. -/
structure KeepsTo (n : String) (q : Place) (own : String) (s : FileStore) : Prop where
  /-- The path of the name leads to that file, if it leads to a file. -/
  resolve : ∀ x, s.tree.resolve (s.filePath n) = .ok x → s.tree.isDirectory x = false →
    x = q.child (own ++ ".yaml")
  /-- What is read depends on that file alone. -/
  read : ∀ t : FileStore, t.directory = s.directory →
    (∀ x, t.tree.isDirectory x = s.tree.isDirectory x) →
    t.tree.lookup (q.child (own ++ ".yaml")) = s.tree.lookup (q.child (own ++ ".yaml")) →
    t.read n = s.read n
  /-- Nothing stood where a resource was created, and it stands there now. -/
  create : ∀ r t, r.name = n → ResourceStore.create r s = (.ok (), t) →
    s.tree.lookup (q.child (own ++ ".yaml")) = none ∧ FiledAt q own r s t
  /-- The status is replaced there, if the file records the name. -/
  replaceStatus : ∀ r t, r.name = n → (∀ current, s.read n = .ok current → current.name = n) →
    ResourceStore.replaceStatus r s = (.ok (), t) → FiledAt q own r s t

section Directory

variable (hopen : IsOpen q { s with directory := directory }) (hown : IsPlain own)
include hopen hown

/-- What is written for a name goes to the file that its path names. -/
theorem filedAt_of_write (hpath : s.filePath r.name = Path.join directory (own ++ ".yaml"))
    (hwrite : write r s = (.ok (), t)) : FiledAt q own r s t := by
  obtain ⟨text, draft, file, htext, hdraft, hdir, hfile, hdir', rfl⟩ :=
    exists_moved_of_write hwrite
  have hdraftPath : s.draftPath r.name = Path.join directory (own ++ ".yaml.tmp") := by
    rw [draftPath, hpath, Path.join_append (file_ne (.inl rfl) (by decide)), String.append_assoc]
    rfl
  rw [hpath] at hfile
  rw [hdraftPath] at hdraft
  obtain rfl := hopen.eq_child_of_resolve hown (.inl rfl) hfile hdir'
  obtain rfl := hopen.eq_child_of_resolve hown (.inr rfl) hdraft hdir
  have hne : q.child (own ++ ".yaml.tmp") ≠ q.child (own ++ ".yaml") := fun heq =>
    file_ne_draft (Place.child_inj.mp heq).symm
  refine ⟨⟨rfl, FileTree.isDirectory_moved hdir hdir' _, fun y hy => ?_⟩,
    ⟨text, htext, FileTree.lookup_moved_self hdir' _⟩, FileTree.lookup_moved_source hdir hne _⟩
  simp only [List.mem_cons, List.not_mem_nil, or_false, not_or] at hy
  exact FileTree.lookup_moved_of_ne hy.1 hy.2 _

/-- **Calls for a name keep to the file that its path names**, in a directory that is there. -/
theorem keepsTo_of_filePath_eq (hpath : s.filePath n = Path.join directory (own ++ ".yaml")) :
    KeepsTo n q own s where
  resolve x hx hfile := by
    rw [hpath] at hx
    exact hopen.eq_child_of_resolve hown (.inl rfl) hx hfile
  read t hdirectory hdirs hlookup := by
    refine read_eq_of_lookup_eq hdirectory hdirs fun x hx => ?_
    cases hdir : s.tree.isDirectory x with
    | false =>
      rw [hpath] at hx
      rw [hopen.eq_child_of_resolve hown (.inl rfl) hx hdir, hlookup]
    | true =>
      have hthere : t.tree.isDirectory x = true := (hdirs x).trans hdir
      rw [beq_iff_eq.mp hdir, beq_iff_eq.mp hthere]
  create r t hname hcreate := by
    subst hname
    have hfiled := filedAt_of_write hopen hown hpath (write_of_create hcreate)
    obtain ⟨-, -, file, -, -, -, hfile, hdir, -⟩ := exists_moved_of_write (write_of_create hcreate)
    have hnone := find?_eq_none_of_create hcreate
    rw [FileTree.find?, hfile] at hnone
    rw [hpath] at hfile
    rw [hopen.eq_child_of_resolve hown (.inl rfl) hfile hdir] at hnone
    exact ⟨hnone, hfiled⟩
  replaceStatus r t hname hrecorded hreplace := by
    subst hname
    cases hread : s.read r.name with
    | error fault =>
      rw [replaceStatus_of_error hread] at hreplace
      cases hreplace
    | ok current =>
      rw [replaceStatus_of_ok hread] at hreplace
      have hsame : { current with status := r.status } = r := by rw [hrecorded current hread]
      rw [hsame] at hreplace
      exact filedAt_of_write hopen hown hpath hreplace

end Directory

end Calls

/-! ### Names with slashes and zero characters -/

/-- A name is plain, or ends in a plain one behind a slash, or has a zero character. -/
theorem isPlain_or_slash_or_zero (n : String) : IsPlain n ∨
    (∃ up own, n = up ++ "/" ++ own ∧ '\x00' ∉ up.toList ∧ IsPlain own) ∨ '\x00' ∈ n.toList := by
  by_cases hzero : '\x00' ∈ n.toList
  · exact .inr (.inr hzero)
  · by_cases hslash : '/' ∈ n.toList
    · -- the first slash from the end
      obtain ⟨own, up, hreverse, hown⟩ := List.eq_append_cons_of_mem (List.mem_reverse.mpr hslash)
      have hlist : n.toList = up.reverse ++ '/' :: own.reverse := by
        have hback := congrArg List.reverse hreverse
        simpa using hback
      rw [hlist] at hzero
      refine .inr (.inl ⟨String.ofList up.reverse, String.ofList own.reverse, ?_, ?_, ?_, ?_⟩)
      · rw [← String.toList_inj]
        simpa using hlist
      · simpa using fun hmem => hzero (by simp [hmem])
      · simpa using hown
      · simpa using fun hmem => hzero (by simp [hmem])
    · exact .inl ⟨hslash, hzero⟩

/-- The store in the directory that a path leads to from that of another one. -/
def within (s : FileStore) (up : String) : FileStore :=
  { s with directory := Path.join s.directory (up ++ "/") }

/-- The file of a name with a slash is that of the rest of the name in another directory. -/
theorem filePath_append_slash (s : FileStore) (up : String) (hown : IsPlain own) :
    s.filePath (up ++ "/" ++ own) = Path.join (s.within up).directory (own ++ ".yaml") := by
  have hslash : '/' ∉ (own ++ ".yaml").toList := by simp [hown.no_slash]
  rw [filePath, String.append_assoc, Path.join_append_slash _ _ hslash, within]

/-- If a resource was created under a name with a slash, there is a directory before the slash. -/
theorem IsOpen.exists_isOpen_within [DocumentFormat] (h : IsOpen p s) (hown : IsPlain own)
    (hup : '\x00' ∉ up.toList) (hname : r.name = up ++ "/" ++ own)
    (hcreate : ResourceStore.create r s = (.ok (), t)) :
    ∃ q, IsOpen q (s.within up) := by
  obtain ⟨-, -, file, -, -, -, hfile, hdir, -⟩ := exists_moved_of_write (write_of_create hcreate)
  have hzero : '\x00' ∉ r.name.toList := by simp [hname, hup, hown.no_zero]
  have hwhole : '\x00' ∉ (s.filePath r.name).toList := by
    intro hcut
    rw [h.resolve_filePath_of_mem hzero hcut] at hfile
    cases hfile
    rw [h.isDirectory] at hdir
    cases hdir
  have hslash : '/' ∉ (own ++ ".yaml").toList := by simp [hown.no_slash]
  obtain ⟨before, hbefore⟩ := Path.exists_eq_append_of_join s.directory (up ++ "/")
  have hdirectory : (s.within up).directory = before ++ up ++ "/" := by
    rw [within, hbefore, String.append_assoc]
  have hpath : s.filePath r.name = before ++ up ++ "/" ++ (own ++ ".yaml") := by
    rw [hname, filePath_append_slash s up hown, hdirectory, Path.join_slash _ hslash]
  rw [hpath] at hfile hwhole
  obtain ⟨q, hq, hthere⟩ := FileTree.exists_isDirectory_of_resolve hslash hwhole hfile
  exact ⟨q, hdirectory ▸ hq, hthere⟩

/-- A zero character ends a name, and the ending of its file is lost. -/
theorem resolve_filePath_of_mem_zero (s : FileStore) (hzero : '\x00' ∈ n.toList) :
    s.tree.resolve (s.filePath n) = s.tree.resolve (Path.join s.directory (terminated n)) := by
  have hne : n ≠ "" := by
    rintro rfl
    cases hzero
  have hyaml : Path.isAbsolute (n ++ ".yaml") = Path.isAbsolute n := Path.isAbsolute_append hne _
  obtain ⟨before, hbefore⟩ := Path.exists_join_eq s.directory (Path.isAbsolute n)
  refine FileTree.resolve_eq_of_terminated_eq ?_
  have hmem : '\x00' ∈ (before ++ n).toList := by simp [hzero]
  rw [filePath, hbefore _ hyaml, hbefore _ (Path.isAbsolute_terminated n), ← String.append_assoc,
    terminated_append_of_mem hmem, terminated_append_terminated]

/-! ### Confinement -/

/-- **Resources are kept where their names lead.** The directory of a store is there, and may hold
anything, in any format. A name is plain, or ends in a plain one behind a slash, or has a zero
character.

Calls for a plain name keep to the entry of the directory that is called after the name, and no two
plain names have one file. The path of a name leads to the entry that is called after it only if the
name is plain. Calls for a name with a slash keep to the file of what is behind the slash, in the
directory that is before it; and nothing is created under such a name unless that directory is
there. And the path of a name with a zero character leads to what is called like the name up to
there. -/
theorem files_confined [DocumentFormat] (hopen : IsOpen p s) :
    (∀ n, IsPlain n ∨ (∃ up own, n = up ++ "/" ++ own ∧ '\x00' ∉ up.toList ∧ IsPlain own) ∨
      '\x00' ∈ n.toList) ∧
    (∀ n, IsPlain n → KeepsTo n p n s) ∧
    (∀ n m x, IsPlain n → IsPlain m → s.tree.isDirectory x = false →
      s.tree.resolve (s.filePath n) = .ok x → s.tree.resolve (s.filePath m) = .ok x → n = m) ∧
    (∀ n, s.tree.resolve (s.filePath n) = .ok (p.child (n ++ ".yaml")) → IsPlain n) ∧
    (∀ up own, IsPlain own →
      (∀ q, IsOpen q (s.within up) → KeepsTo (up ++ "/" ++ own) q own s) ∧
      ∀ r t, r.name = up ++ "/" ++ own → '\x00' ∉ up.toList →
        ResourceStore.create r s = (.ok (), t) → ∃ q, IsOpen q (s.within up)) ∧
    ∀ n, '\x00' ∈ n.toList →
      s.tree.resolve (s.filePath n) = s.tree.resolve (Path.join s.directory (terminated n)) := by
  refine ⟨isPlain_or_slash_or_zero, fun n hn => keepsTo_of_filePath_eq hopen hn rfl,
    fun n m x hn hm hfile hnx hmx => hopen.eq_of_resolve_of_resolve hn hm hfile hnx hmx,
    fun n hn => isPlain_of_resolve hn, fun up own hown => ⟨fun q hq => ?_, fun r t hname hup => ?_⟩,
    fun n hzero => resolve_filePath_of_mem_zero s hzero⟩
  · exact keepsTo_of_filePath_eq hq hown (filePath_append_slash s up hown)
  · exact hopen.exists_isOpen_within hown hup hname

/-! ### Directories with files in JSON -/

open scoped Json

/-- A plain name, and the same name behind a slash, which leads out of the directory. -/
theorem files_confined_twoNames :
    let s := shelf [("network", { name := "network" })]
    let store := Place.current.child "store"
    IsOpen store s ∧ IsPlain "dns" ∧
    (∃ t, ResourceStore.create { name := "dns" } s = (.ok (), t) ∧
      FiledAt store "dns" { name := "dns" } s t) ∧
    ∃ t, ResourceStore.create { name := "../dns" } s = (.ok (), t) ∧
      FiledAt Place.current "dns" { name := "../dns" } s t := by
  intro s store
  have hopen : IsOpen store s := isOpen_shelf _
  have hplain : IsPlain "dns" := by decide
  have habove : IsOpen Place.current (s.within "..") := ⟨by decide +kernel, by decide +kernel⟩
  obtain ⟨-, hkeeps, -, -, hslash, -⟩ := files_confined hopen
  obtain ⟨t, ht⟩ := exists_eq_ok
    (x := ResourceStore.create { name := "dns" } s) (by decide +kernel)
  obtain ⟨u, hu⟩ := exists_eq_ok
    (x := ResourceStore.create { name := "../dns" } s) (by decide +kernel)
  exact ⟨hopen, hplain, ⟨t, ht, ((hkeeps "dns" hplain).create _ t rfl ht).2⟩,
    u, hu, (((hslash ".." "dns" hplain).1 _ habove).create _ u rfl hu).2⟩

/-- A resource is created outside the directory, and not at its entry; and another name has the file
of a resource in the directory. -/
theorem not_confined_outside :
    let s := shelf [("network", { name := "network" })]
    let store := Place.current.child "store"
    let outside := Place.current.child "outside.yaml"
    IsOpen store s ∧ outside.isWithin store = false ∧
    (∃ t, ResourceStore.create { name := "../outside" } s = (.ok (), t) ∧
      s.tree.lookup outside = none ∧ (t.tree.lookup outside).isSome ∧
      t.tree.lookup (store.child "../outside.yaml") = none) ∧
    s.tree.resolve (s.filePath "./network") = .ok (store.child "network.yaml") ∧
    s.tree.resolve (s.filePath "network") = .ok (store.child "network.yaml") ∧
    (s.read "./network").toOption = some { name := "network" } := by
  intro s store outside
  have habove : IsOpen Place.current (s.within "..") := ⟨by decide +kernel, by decide +kernel⟩
  have hplain : IsPlain "outside" := by decide
  have hkeeps : KeepsTo "../outside" Place.current "outside" s :=
    keepsTo_of_filePath_eq habove hplain (filePath_append_slash s ".." hplain)
  obtain ⟨t, ht⟩ := exists_eq_ok
    (x := ResourceStore.create { name := "../outside" } s) (by decide +kernel)
  obtain ⟨hbefore, hfiled⟩ := hkeeps.create _ t rfl ht
  obtain ⟨text, -, hfile⟩ := hfiled.lookup_file
  have hthere : (t.tree.lookup outside).isSome := Option.isSome_of_mem hfile
  have hentry : t.tree.lookup (store.child "../outside.yaml") = none :=
    (hfiled.changed.lookup _ (by decide +kernel)).trans (by decide +kernel)
  exact ⟨isOpen_shelf _, by decide +kernel, ⟨t, ht, hbefore, hthere, hentry⟩, by decide +kernel,
    by decide +kernel, by decide +kernel⟩

end FileStore

end OperatorHealth

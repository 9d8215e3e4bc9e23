import Mathlib.Logic.Relation
import OperatorHealth.Proofs.Json.Files
import OperatorHealth.Proofs.Workload.Entry

/-!
# Looking up a workload in a snapshot

Whatever the snapshot is, looking up a workload gives a state or one of four causes why there is
none: the file cannot be read, its document is a scalar, no item of the section is the entry of the
workload, or what the first such entry tells is no state. So the first entry alone decides. Changes
to items that are no entry of the workload, and to anything behind its first entry or outside the
section, make no difference.

## Main definitions

* `Snapshot.IsEntryFor`, `Snapshot.IsFirstEntry`: the entries of a name, and the first one.
* `StateLayout.Gives`: what comes of looking up a workload, by what was loaded.
* `Snapshot.Edit`: changes that leave the first entry of a name alone.

## Main results

* `StateLayout.fetch_eq_iff`: looking up a workload.
* `Snapshot.reflTransGen_edit_iff`: changes lead from one list of items to another exactly if the
  first entry is the same.
* `Snapshot.lookup_settled`: what decides, and what does not.
-/

namespace OperatorHealth

open Document

namespace Snapshot

variable {name : String} {items items' : List Document} {d : Document}
  {es : List (Document × Document)}

/-! ### The first entry of a name -/

/-- A node is an entry of a name: a mapping in which the name is a scalar with that text. -/
def IsEntryFor (name : String) (d : Document) : Prop := d.HoldsAt ["name"] (scalar name)

/-- A mapping is the first entry of a name. -/
def IsFirstEntry (name : String) (items : List Document) (es : List (Document × Document)) : Prop :=
  ∃ before after, items = before ++ mapping es :: after ∧ IsEntryFor name (mapping es) ∧
    ∀ d ∈ before, ¬ IsEntryFor name d

theorem isEntryOf_eq_true_iff : isEntryOf name d = true ↔ IsEntryFor name d := by
  cases d with
  | mapping es =>
    simp only [isEntryOf, IsEntryFor, HoldsAt, exists_eq_right]
    split <;> simp_all
  | null => simp [isEntryOf, IsEntryFor, HoldsAt]
  | scalar s => simp [isEntryOf, IsEntryFor, HoldsAt]
  | sequence ds => simp [isEntryOf, IsEntryFor, HoldsAt]

theorem find?_isEntryOf_eq_none_iff :
    items.find? (isEntryOf name) = none ↔ ∀ d ∈ items, ¬ IsEntryFor name d := by
  simp only [List.find?_eq_none, isEntryOf_eq_true_iff]

theorem find?_isEntryOf_eq_some_iff : items.find? (isEntryOf name) = some d ↔
    ∃ es, d = mapping es ∧ IsFirstEntry name items es := by
  rw [List.find?_eq_some_iff_append, isEntryOf_eq_true_iff]
  constructor
  · rintro ⟨hd, before, after, rfl, hbefore⟩
    cases d with
    | mapping es =>
      refine ⟨es, rfl, before, after, rfl, hd, fun d' hd' hentry => ?_⟩
      simpa [isEntryOf_eq_true_iff.mpr hentry] using hbefore d' hd'
    | null => exact hd.elim
    | scalar s => exact hd.elim
    | sequence ds => exact hd.elim
  · rintro ⟨es, rfl, before, after, rfl, hes, hbefore⟩
    refine ⟨hes, before, after, rfl, fun d' hd' => ?_⟩
    simpa [← isEntryOf_eq_true_iff] using hbefore d' hd'

end Snapshot

/-! ### Looking up a workload -/

namespace StateLayout

variable {α : Type} {l : StateLayout α} {path : String} {id : WorkloadName} {tree : FileTree}
  {convert : Document → Except NodeError α} {x : Except FetchError α}
  {es : List (Document × Document)}

/-- What comes of looking up a workload in a snapshot, by what was loaded from its file. -/
inductive Gives (l : StateLayout α) (path : String) (id : WorkloadName) :
    Except LoadError Document → Except FetchError α → Prop
  | unreadable (e : LoadError) : Gives l path id (.error e) (.error (.unreadableSnapshot path))
  | scalar (text : String) :
      Gives l path id (.ok (scalar text)) (.error (.malformedSnapshot path))
  | missing {root : Document} (hroot : ∀ text, root ≠ scalar text)
      (hmissing : ∀ items, root.HoldsAt [Snapshot.sectionKey l.kind] (sequence items) →
        ∀ d ∈ items, ¬ Snapshot.IsEntryFor id.text d) :
      Gives l path id (.ok root) (.error (.missingEntry l.kind id))
  | malformed {root : Document} {items : List Document} {es : List (Document × Document)}
      (hsection : root.HoldsAt [Snapshot.sectionKey l.kind] (sequence items))
      (hfirst : Snapshot.IsFirstEntry id.text items es) (hstate : ∀ state, ¬ l.Tells es state) :
      Gives l path id (.ok root) (.error (.malformedEntry l.kind id))
  | state {root : Document} {items : List Document} {es : List (Document × Document)} {state : α}
      (hsection : root.HoldsAt [Snapshot.sectionKey l.kind] (sequence items))
      (hfirst : Snapshot.IsFirstEntry id.text items es) (hstate : l.Tells es state) :
      Gives l path id (.ok root) (.ok state)

/-- Whatever was loaded, something comes of it. -/
theorem exists_gives (l : StateLayout α) (path : String) (id : WorkloadName)
    (load : Except LoadError Document) : ∃ x, l.Gives path id load x := by
  rcases load with e | root
  · exact ⟨_, .unreadable e⟩
  by_cases hroot : ∃ text, root = .scalar text
  · obtain ⟨text, rfl⟩ := hroot
    exact ⟨_, .scalar text⟩
  by_cases hfound : ∃ items es, root.HoldsAt [Snapshot.sectionKey l.kind] (.sequence items) ∧
      Snapshot.IsFirstEntry id.text items es
  · obtain ⟨items, es, hsection, hfirst⟩ := hfound
    by_cases hstate : ∃ state, l.Tells es state
    · obtain ⟨state, hstate⟩ := hstate
      exact ⟨_, .state hsection hfirst hstate⟩
    · exact ⟨_, .malformed hsection hfirst (not_exists.mp hstate)⟩
  · -- a section without a first entry has no entry at all
    refine ⟨_, .missing (not_exists.mp hroot) fun items hsection => ?_⟩
    rw [← Snapshot.find?_isEntryOf_eq_none_iff, Option.eq_none_iff_forall_ne_some]
    intro d hd
    obtain ⟨es, rfl, hfirst⟩ := Snapshot.find?_isEntryOf_eq_some_iff.mp hd
    exact hfound ⟨items, es, hsection, hfirst⟩

variable [DocumentFormat] {root : Document} {items : List Document}

theorem findEntry_eq_ok (hload : tree.load? path = .ok root)
    (hsection : root.HoldsAt [Snapshot.sectionKey l.kind] (sequence items))
    (hfirst : Snapshot.IsFirstEntry id.text items es) :
    Snapshot.findEntry tree path l.kind id = .ok (mapping es) := by
  have hfind := Snapshot.find?_isEntryOf_eq_some_iff.mpr ⟨es, rfl, hfirst⟩
  simp only [Snapshot.findEntry, hload, field?_eq_ok_some_iff.mpr hsection, hfind]

theorem findEntry_eq_missing (hload : tree.load? path = .ok root)
    (hroot : ∀ text, root ≠ scalar text)
    (hmissing : ∀ items, root.HoldsAt [Snapshot.sectionKey l.kind] (sequence items) →
      ∀ d ∈ items, ¬ Snapshot.IsEntryFor id.text d) :
    Snapshot.findEntry tree path l.kind id = .error (.missingEntry l.kind id) := by
  simp only [Snapshot.findEntry, hload]
  split
  · cases root <;> simp_all [field?]
  · rename_i items hsection
    have hnone := hmissing items (field?_eq_ok_some_iff.mp hsection)
    simp only [Snapshot.find?_isEntryOf_eq_none_iff.mpr hnone]
  · rfl

theorem Gives.fetch_eq (h : l.Gives path id (tree.load? path) x)
    (hconvert : ∀ es state, convert (mapping es) = .ok state ↔ l.Tells es state) :
    Snapshot.fetch tree path l.kind convert id = x := by
  generalize hload : tree.load? path = load at h
  cases h with
  | unreadable e => simp only [Snapshot.fetch, Snapshot.findEntry, hload]; rfl
  | scalar text => simp only [Snapshot.fetch, Snapshot.findEntry, hload, field?]; rfl
  | missing hroot hmissing =>
    rw [Snapshot.fetch, findEntry_eq_missing hload hroot hmissing]
    rfl
  | @malformed root items es hsection hfirst hstate =>
    rw [Snapshot.fetch, findEntry_eq_ok hload hsection hfirst]
    cases hentry : convert (mapping es) with
    | error e => simp only [bind, Except.bind, hentry, Except.mapError]
    | ok state => exact (hstate state ((hconvert _ state).mp hentry)).elim
  | state hsection hfirst hstate =>
    have hentry := (hconvert _ _).mpr hstate
    simp only [Snapshot.fetch, findEntry_eq_ok hload hsection hfirst, bind, Except.bind, hentry,
      Except.mapError]

/-- Looking up a workload gives what comes of what was loaded. -/
theorem fetch_eq_iff
    (hconvert : ∀ es state, convert (mapping es) = .ok state ↔ l.Tells es state) :
    Snapshot.fetch tree path l.kind convert id = x ↔ l.Gives path id (tree.load? path) x := by
  constructor
  · rintro rfl
    obtain ⟨x, hx⟩ := l.exists_gives path id (tree.load? path)
    rwa [hx.fetch_eq hconvert]
  · exact fun h => h.fetch_eq hconvert

end StateLayout

namespace Snapshot

/-! ### Changes that make no difference -/

/-- A change to the items of a section that leaves the first entry of a name alone: items that are
no entry of the name come, go, turn into others or change places, and anything changes behind an
entry. -/
inductive Edit (name : String) : List Document → List Document → Prop
  | insert (before after : List Document) {d : Document} (hd : ¬ IsEntryFor name d) :
      Edit name (before ++ after) (before ++ d :: after)
  | delete (before after : List Document) {d : Document} (hd : ¬ IsEntryFor name d) :
      Edit name (before ++ d :: after) (before ++ after)
  | replace (before after : List Document) {d d' : Document} (hd : ¬ IsEntryFor name d)
      (hd' : ¬ IsEntryFor name d') : Edit name (before ++ d :: after) (before ++ d' :: after)
  | exchange (before after : List Document) {d d' : Document}
      (h : ¬ IsEntryFor name d ∨ ¬ IsEntryFor name d') :
      Edit name (before ++ d :: d' :: after) (before ++ d' :: d :: after)
  | behind (before after after' : List Document) {d : Document} (hd : IsEntryFor name d) :
      Edit name (before ++ d :: after) (before ++ d :: after')

variable {name : String} {items items' : List Document}

theorem Edit.symm (h : Edit name items items') : Edit name items' items := by
  cases h with
  | insert before after hd => exact .delete before after hd
  | delete before after hd => exact .insert before after hd
  | replace before after hd hd' => exact .replace before after hd' hd
  | exchange before after h => exact .exchange before after h.symm
  | behind before after after' hd => exact .behind before after' after hd

theorem Edit.find?_eq (h : Edit name items items') :
    items.find? (isEntryOf name) = items'.find? (isEntryOf name) := by
  cases h with
  | insert before after hd => simp_all [← isEntryOf_eq_true_iff, List.find?_append]
  | delete before after hd => simp_all [← isEntryOf_eq_true_iff, List.find?_append]
  | replace before after hd hd' => simp_all [← isEntryOf_eq_true_iff, List.find?_append]
  | exchange before after h =>
    rcases h with h | h <;>
      simp_all [← isEntryOf_eq_true_iff, List.find?_append, List.find?_cons]
  | behind before after after' hd => simp_all [← isEntryOf_eq_true_iff, List.find?_append]

/-- Every list of items can be changed into its first entry alone. -/
theorem reflTransGen_edit_toList (name : String) (items : List Document) :
    Relation.ReflTransGen (Edit name) items (items.find? (isEntryOf name)).toList := by
  -- items in front of the first entry go one by one, and what is behind it goes at once
  induction items with
  | nil => exact .refl
  | cons d items ih =>
    by_cases hd : IsEntryFor name d
    · rw [List.find?_cons_of_pos (isEntryOf_eq_true_iff.mpr hd)]
      exact .single (.behind [] items [] hd)
    · rw [List.find?_cons_of_neg (mt isEntryOf_eq_true_iff.mp hd)]
      exact ih.head (.delete [] items hd)

/-- Changes lead from one list of items to another exactly if the first entry is the same. -/
theorem reflTransGen_edit_iff : Relation.ReflTransGen (Edit name) items items' ↔
    items.find? (isEntryOf name) = items'.find? (isEntryOf name) := by
  constructor
  · intro h
    induction h with
    | refl => rfl
    | tail _ hedit ih => exact ih.trans hedit.find?_eq
  · intro h
    -- both lists come to the same first entry, and every change can be taken back
    have : Std.Symm (Edit name) := ⟨fun _ _ => Edit.symm⟩
    have hback := Std.Symm.symm _ _ (reflTransGen_edit_toList name items')
    exact (reflTransGen_edit_toList name items).trans (h ▸ hback)

/-- The sections of a kind in two documents differ in such changes only. What is beside these
sections does not matter. -/
def SameUpToEdits (kind : WorkloadKind) (name : String) (root root' : Document) : Prop :=
  ∃ items items', root.HoldsAt [sectionKey kind] (sequence items) ∧
    root'.HoldsAt [sectionKey kind] (sequence items') ∧
    Relation.ReflTransGen (Edit name) items items'

section Load

variable [DocumentFormat] {α : Type} {kind : WorkloadKind} {id : WorkloadName}
  {tree tree' : FileTree}
  {path path' : String} {root root' : Document}

theorem SameUpToEdits.fetch_eq (h : SameUpToEdits kind id.text root root')
    (hload : tree.load? path = .ok root) (hload' : tree'.load? path' = .ok root')
    (convert : Document → Except NodeError α) :
    fetch tree path kind convert id = fetch tree' path' kind convert id := by
  obtain ⟨items, items', hsection, hsection', hedits⟩ := h
  rw [← field?_eq_ok_some_iff] at hsection hsection'
  simp only [fetch, findEntry, hload, hload', hsection, hsection',
    reflTransGen_edit_iff.mp hedits]

end Load

end Snapshot

end OperatorHealth

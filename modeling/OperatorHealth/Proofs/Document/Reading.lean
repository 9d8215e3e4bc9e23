import OperatorHealth.Proofs.Document.Conversion

/-!
# What documents hold

A scalar says its text, and a null says `null`. A scalar may spell out an integer, which converts if
it fits. A mapping holds documents under its keys, and so do the mappings in it, so that documents
stand at the end of paths of keys, as far as the keys are texts. What is left out is what no mapping
on the way holds; a scalar on the way leaves nothing out, since it cannot be asked.

## Main definitions

* `Document.Says`, `Document.Spells`: the text and the integer of a node.
* `Document.HoldsAt`, `Document.LeavesOut`: what stands at the end of a path, and that nothing does.
* `Document.MayHold`: a document that holds something or leaves it out.

## Main results

* `Document.text_eq_ok_iff_says`, `Document.int64_eq_ok_iff`, `Document.int32_eq_ok_iff`,
  `Document.list_eq_ok_iff`, `Document.textMap_eq_ok_iff`: conversions that succeed.
* `Document.field?_eq_ok_some_iff`, `Document.field?_eq_ok_none_iff`: the entry of a key.
* `Document.mayHold_cons_iff`: one key further on a path.
-/

namespace OperatorHealth.Document

variable {d d' node : Document} {key text : String} {path : List String}

/-! ### Texts and integers -/

/-- What a node says where a text is expected. -/
inductive Says : Document → String → Prop
  | scalar (text : String) : Says (scalar text) text
  | null : Says null "null"

/-- A node is a scalar that spells out an integer. -/
def Spells (d : Document) (n : Int) : Prop :=
  ∃ text, d = scalar text ∧ Integer.read? text.toList = some n

theorem text_eq_ok_iff_says : d.text = .ok text ↔ d.Says text := by
  constructor
  · intro h
    cases d with
    | null => cases h; exact .null
    | scalar s => cases h; exact .scalar _
    | sequence items => cases h
    | mapping es => cases h
  · rintro (_ | _) <;> rfl

theorem integer_eq_ok_iff {n : Int} : d.integer = .ok n ↔ d.Spells n := by
  cases d with
  | scalar s => cases h : Integer.read? s.toList <;> simp [integer, Spells, h]
  | null => simp [integer, Spells]
  | sequence items => simp [integer, Spells]
  | mapping es => simp [integer, Spells]

theorem Spells.unique {n m : Int} (hn : d.Spells n) (hm : d.Spells m) : n = m := by
  rw [← integer_eq_ok_iff] at hn hm
  exact Except.ok.inj (hn.symm.trans hm)

theorem int64_eq_ok_iff {n : Int64} : d.int64 = .ok n ↔ d.Spells n.toInt := by
  rw [int64, Except.bind_eq_ok, ← integer_eq_ok_iff]
  constructor
  · rintro ⟨m, hm, h⟩
    split at h
    · rename_i hrange
      cases h
      rw [hm, Int64.toInt_ofInt_of_le hrange.1 (Int.lt_of_le_of_lt hrange.2 (by decide))]
    · cases h
  · intro h
    exact ⟨n.toInt, h, by rw [if_pos ⟨n.le_toInt, n.toInt_le⟩, Int64.ofInt_toInt]⟩

theorem int32_eq_ok_iff {n : Int32} : d.int32 = .ok n ↔ d.Spells n.toInt := by
  rw [int32, Except.bind_eq_ok, ← integer_eq_ok_iff]
  constructor
  · rintro ⟨m, hm, h⟩
    split at h
    · rename_i hrange
      cases h
      rw [hm, Int32.toInt_ofInt_of_le hrange.1 (Int.lt_of_le_of_lt hrange.2 (by decide))]
    · cases h
  · intro h
    exact ⟨n.toInt, h, by rw [if_pos ⟨n.le_toInt, n.toInt_le⟩, Int32.ofInt_toInt]⟩

/-! ### Sequences and mappings -/

theorem list_eq_ok_iff {α : Type} {convert : Document → Except NodeError α} {as : List α} :
    d.list convert = .ok as ↔
      ∃ items, d = sequence items ∧ List.Forall₂ (fun item a => convert item = .ok a) items as := by
  cases d with
  | sequence items => simp [Document.list, mapM_eq_ok]
  | null => simp [Document.list]
  | scalar s => simp [Document.list]
  | mapping es => simp [Document.list]

theorem textMap_eq_ok_iff {ps : List (String × String)} : d.textMap = .ok ps ↔
    ∃ es, d = mapping es ∧ List.Forall₂ (fun e p => e.1.Says p.1 ∧ e.2.Says p.2) es ps := by
  have hentry (e : Document × Document) (p : String × String) :
      (do return (← e.1.text, ← e.2.text)) = .ok p ↔ e.1.Says p.1 ∧ e.2.Says p.2 := by
    simp only [Except.bind_eq_ok, Except.pure_eq_ok, text_eq_ok_iff_says, Prod.ext_iff]
    grind
  cases d with
  | mapping es => simp only [textMap, mapM_eq_ok, hentry, mapping.injEq, exists_eq_left']
  | null => simp [textMap]
  | scalar s => simp [textMap]
  | sequence items => simp [textMap]

/-! ### Paths -/

/-- A node holds a document at the end of a path of keys. -/
def HoldsAt : Document → List String → Document → Prop
  | node, [], d => node = d
  | mapping es, key :: path, d => ∃ v, findEntry key es = some v ∧ v.HoldsAt path d
  | _, _ :: _, _ => False

/-- A node can be asked for what stands at the end of a path, and nothing does. -/
def LeavesOut : Document → List String → Prop
  | _, [] => False
  | scalar _, _ :: _ => False
  | mapping es, key :: path => ∀ v, findEntry key es = some v → v.LeavesOut path
  | _, _ :: _ => True

/-- A node holds something at the end of a path that is as given, or leaves it out, which is as it
is if it is missing. -/
def MayHold (node : Document) (path : List String) (Missing : Prop) (Given : Document → Prop) :
    Prop :=
  node.LeavesOut path ∧ Missing ∨ ∃ d, node.HoldsAt path d ∧ Given d

theorem holdsAt_cons_iff :
    node.HoldsAt (key :: path) d ↔ ∃ v, node.field? key = .ok (some v) ∧ v.HoldsAt path d := by
  cases node <;> simp [HoldsAt, field?]

theorem leavesOut_cons_iff : node.LeavesOut (key :: path) ↔
    node.field? key = .ok none ∨ ∃ v, node.field? key = .ok (some v) ∧ v.LeavesOut path := by
  cases node with
  | mapping es => cases h : findEntry key es <;> simp [LeavesOut, field?, h]
  | null => simp [LeavesOut, field?]
  | scalar s => simp [LeavesOut, field?]
  | sequence items => simp [LeavesOut, field?]

theorem field?_eq_ok_some_iff : node.field? key = .ok (some d) ↔ node.HoldsAt [key] d := by
  simp [holdsAt_cons_iff, HoldsAt]

theorem field?_eq_ok_none_iff : node.field? key = .ok none ↔ node.LeavesOut [key] := by
  simp [leavesOut_cons_iff, LeavesOut]

theorem HoldsAt.unique (h : node.HoldsAt path d) (h' : node.HoldsAt path d') : d = d' := by
  induction path generalizing node with
  | nil => exact h.symm.trans h'
  | cons key path ih =>
    obtain ⟨v, hv, h⟩ := holdsAt_cons_iff.mp h
    obtain ⟨v', hv', h'⟩ := holdsAt_cons_iff.mp h'
    obtain rfl : v = v' := by simpa [hv] using hv'
    exact ih h h'

theorem LeavesOut.not_holdsAt (h : node.LeavesOut path) : ¬ node.HoldsAt path d := by
  induction path generalizing node with
  | nil => exact h.elim
  | cons key path ih =>
    intro hd
    obtain ⟨v, hv, hd⟩ := holdsAt_cons_iff.mp hd
    rcases leavesOut_cons_iff.mp h with h | ⟨v', hv', h⟩
    · rw [h] at hv
      cases hv
    · obtain rfl : v = v' := by simpa [hv] using hv'
      exact ih h hd

theorem mayHold_congr {Missing : Prop} {Given Given' : Document → Prop}
    (h : ∀ d, Given d ↔ Given' d) :
    node.MayHold path Missing Given ↔ node.MayHold path Missing Given' := by
  simp only [MayHold, h]

/-- One key further on a path. -/
theorem mayHold_cons_iff {Missing : Prop} {Given : Document → Prop} :
    node.MayHold (key :: path) Missing Given ↔
      node.MayHold [key] Missing (·.MayHold path Missing Given) := by
  simp only [MayHold, leavesOut_cons_iff, holdsAt_cons_iff, LeavesOut, HoldsAt]
  grind

/-! ### Sections -/

variable {v : Document}

theorem HoldsAt.holdsAt_cons_iff (h : node.HoldsAt [key] v) :
    node.HoldsAt (key :: path) d ↔ v.HoldsAt path d := by
  simp [Document.holdsAt_cons_iff, field?_eq_ok_some_iff.mpr h]

theorem HoldsAt.mayHold_cons_iff {Missing : Prop} {Given : Document → Prop}
    (h : node.HoldsAt [key] v) :
    node.MayHold (key :: path) Missing Given ↔ v.MayHold path Missing Given := by
  simp [MayHold, Document.holdsAt_cons_iff, leavesOut_cons_iff, field?_eq_ok_some_iff.mpr h]

/-- A section on the way to what is held. -/
theorem HoldsAt.exists_section {key' : String} (h : node.HoldsAt (key :: key' :: path) d) :
    ∃ v, node.HoldsAt [key] v ∧ v ≠ null := by
  obtain ⟨v, hv, hd⟩ := Document.holdsAt_cons_iff.mp h
  refine ⟨v, field?_eq_ok_some_iff.mp hv, ?_⟩
  rintro rfl
  exact hd

end OperatorHealth.Document

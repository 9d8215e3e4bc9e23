import OperatorHealth.Proofs.Document.Integer
import OperatorHealth.Proofs.Document.Record
import OperatorHealth.Proofs.Json.Files
import OperatorHealth.Proofs.Workload.Annotations
import OperatorHealth.Proofs.Workload.Assignment
import OperatorHealth.Proofs.Workload.Entry
import OperatorHealth.Workload.Rollout

/-!
# Snapshots that describe states of workloads

A snapshot describes states of workloads if the section of each kind has one entry for each of
them, in any order, with the text of the name and with numbers in decimal. Numbers that are zero,
labels if there are none, and a section without entries may be left out, and there may be entries
of other keys. Reading the snapshot then gives for each name what a table gives that holds the
states, and both fail for the same names, so a rollout looks the same in both.

Names are told apart by their texts in the snapshot and as pairs in the table, which comes to the
same for names that can be parsed.

## Main definitions

* `StateLayout.IsEntry`, `StateLayout.IsSection`: the entries and the sections of a snapshot.
* `Snapshot.Describes`: the snapshots of states of both kinds.

## Main results

* `Snapshot.describes_document`: there is a snapshot for all states.
* `StateLayout.toOption_fetch`: reading the state of a workload.
* `Snapshot.inspector_agrees`: the snapshot against the table.
-/

namespace OperatorHealth

open Document

/-! ### Entries and sections -/

namespace StateLayout

variable {α : Type} {l : StateLayout α} {id : WorkloadName} {es : List (Document × Document)}

/-- A key has a number, or is left out and the number is zero. -/
def HasNumber (es : List (Document × Document)) (key : String) (n : Int) : Prop :=
  findEntry key es = some (scalar (toString n)) ∨ findEntry key es = none ∧ n = 0

/-- The document of labels, in any order. -/
def IsLabels (d : Document) (a : Annotations) : Prop :=
  ∃ ps : List (String × String), ps.Perm a.pairs ∧ d = record (ps.map fun p => (p.1, scalar p.2))

/-- A mapping is the entry of a workload in a state. -/
structure IsEntry (l : StateLayout α) (es : List (Document × Document)) (id : WorkloadName)
    (state : α) : Prop where
  name : findEntry "name" es = some (scalar id.text)
  numbers : ∀ q ∈ l.numbers state, HasNumber es q.1 q.2
  labels : (∃ d, findEntry "annotations" es = some d ∧ IsLabels d (l.labels state)) ∨
    findEntry "annotations" es = none ∧ l.labels state = .empty

/-- A document has a section with the entries of an assignment, in any order. -/
def IsSection (l : StateLayout α) (root : Document) (assignment : Assignment α) : Prop :=
  (∃ ps ess, ps.Perm assignment.entries ∧
    root.field? (Snapshot.sectionKey l.kind) = .ok (some (.sequence (ess.map mapping))) ∧
    List.Forall₂ (fun es p => l.IsEntry es p.1 p.2) ess ps) ∨
  root.field? (Snapshot.sectionKey l.kind) = .ok none ∧ assignment.entries = []

/-! ### Finding an entry -/

theorem IsEntry.isEntryOf_iff {state : α} {m : WorkloadName} (h : l.IsEntry es m state)
    (hm : m.IsParsed) (hid : id.IsParsed) :
    Snapshot.isEntryOf id.text (mapping es) = true ↔ m = id := by
  simp only [Snapshot.isEntryOf, h.name, beq_iff_eq, hm.text_inj hid]

/-- The first entry of a name is the entry of the state that is assigned to it. -/
theorem rel_find? {ess : List (List (Document × Document))} {ps : List (WorkloadName × α)}
    (h : List.Forall₂ (fun es p => l.IsEntry es p.1 p.2) ess ps)
    (hps : ∀ p ∈ ps, p.1.IsParsed) (hid : id.IsParsed) :
    Option.Rel (fun d state => ∃ es, d = mapping es ∧ l.IsEntry es id state)
      ((ess.map mapping).find? (Snapshot.isEntryOf id.text)) (WorkloadTable.find? id ps) := by
  induction h with
  | nil => exact .none
  | @cons es p ess ps hentry _ ih =>
    rw [List.forall_mem_cons] at hps
    have hmatch := hentry.isEntryOf_iff hps.1 hid
    rw [List.map_cons, List.find?_cons, WorkloadTable.find?_cons]
    by_cases hname : p.1 = id
    · rw [hmatch.mpr hname, if_pos hname]
      exact .some ⟨es, rfl, hname ▸ hentry⟩
    · rw [Bool.eq_false_iff.mpr (mt hmatch.mp hname), if_neg hname]
      exact ih hps.2

theorem IsSection.rel_findEntry [DocumentFormat] {root : Document} {assignment : Assignment α}
    {tree : FileTree} {path : String} (h : l.IsSection root assignment)
    (hload : tree.load? path = .ok root)
    (hid : id.IsParsed) :
    Option.Rel (fun d state => ∃ es, d = mapping es ∧ l.IsEntry es id state)
      (Snapshot.findEntry tree path l.kind id).toOption
      (WorkloadTable.find? id assignment.entries) := by
  rcases h with ⟨ps, ess, hperm, hfield, hentries⟩ | ⟨hfield, hempty⟩
  · have hrel := rel_find? hentries
      (fun p hp => assignment.isParsed p (hperm.mem_iff.mp hp)) hid
    rw [WorkloadTable.find?_perm hperm assignment.nodup] at hrel
    simp only [Snapshot.findEntry, hload, hfield]
    cases hfind : (ess.map mapping).find? (Snapshot.isEntryOf id.text) <;>
      simpa [hfind, Except.toOption] using hrel
  · simp only [Snapshot.findEntry, hload, hfield, hempty]
    exact .none

/-! ### Reading an entry -/

/-- Reading an entry gives the state that it was written for. -/
def IsReadBy (l : StateLayout α) (convert : Document → Except NodeError α) : Prop :=
  ∀ {es id state}, l.IsEntry es id state → convert (mapping es) = .ok state

theorem HasNumber.mayHold {key : String} {n : Int} (h : HasNumber es key n) :
    (mapping es).MayHold [key] (n = 0) (·.Spells n) := by
  rcases h with hwritten | ⟨hnone, hzero⟩
  · exact .inr ⟨_, ⟨_, hwritten, rfl⟩, _, rfl, Integer.read?_toString n⟩
  · exact .inl ⟨by simp [LeavesOut, hnone], hzero⟩

theorem IsLabels.tellsLabels {d : Document} {a : Annotations} (h : IsLabels d a) :
    Snapshot.TellsLabels a d := by
  obtain ⟨ps, hperm, rfl⟩ := h
  refine ⟨_, ps, rfl, ?_, Annotations.ofList_of_perm hperm⟩
  rw [List.map_map, List.forall₂_map_left_iff, List.forall₂_same]
  exact fun p _ => ⟨.scalar p.1, .scalar p.2⟩

/-- An entry that was written for a state tells that state. -/
theorem IsEntry.tells {state : α} (h : l.IsEntry es id state) : l.Tells es state where
  numbers q hq := (h.numbers q hq).mayHold
  labels := by
    rcases h.labels with ⟨d, hd, hlabels⟩ | ⟨hnone, hempty⟩
    · exact .inr ⟨d, ⟨_, hd, rfl⟩, hlabels.tellsLabels⟩
    · exact .inl ⟨by simp [LeavesOut, hnone], hempty⟩

theorem isReadBy_readDaemonSet : ObservedDaemonSet.layout.IsReadBy Snapshot.readDaemonSet :=
  fun h => Snapshot.readDaemonSet_eq_ok_iff.mpr h.tells

theorem isReadBy_readDeployment : ObservedDeployment.layout.IsReadBy Snapshot.readDeployment :=
  fun h => Snapshot.readDeployment_eq_ok_iff.mpr h.tells

/-- Reading the state of a workload in a snapshot gives the state that is assigned to it. -/
theorem toOption_fetch [DocumentFormat] {convert : Document → Except NodeError α} {root : Document}
    {assignment : Assignment α} {tree : FileTree} {path : String} (hconvert : l.IsReadBy convert)
    (h : l.IsSection root assignment) (hload : tree.load? path = .ok root) (hid : id.IsParsed) :
    (Snapshot.fetch tree path l.kind convert id).toOption =
      WorkloadTable.find? id assignment.entries := by
  have hrel := h.rel_findEntry hload hid
  rw [Snapshot.fetch]
  cases hentry : Snapshot.findEntry tree path l.kind id with
  | error e =>
    rw [hentry] at hrel
    cases hfind : WorkloadTable.find? id assignment.entries with
    | none => rfl
    | some state => rw [hfind] at hrel; cases hrel
  | ok d =>
    rw [hentry] at hrel
    cases hfind : WorkloadTable.find? id assignment.entries with
    | none => rw [hfind] at hrel; cases hrel
    | some state =>
      rw [hfind] at hrel
      obtain ⟨es, rfl, hes⟩ : ∃ es, d = mapping es ∧ l.IsEntry es id state := by
        cases hrel
        assumption
      simp only [bind, Except.bind, hconvert hes]
      rfl

/-! ### Writing everything out -/

/-- Entries of different keys are found. -/
theorem findEntry_of_mem {fields : List (String × Document)} {key : String} {d : Document}
    (h : (fields.map Prod.fst).Nodup) (hmem : (key, d) ∈ fields) :
    findEntry key (fields.map fun f => (scalar f.1, f.2)) = some d := by
  obtain ⟨before, after, rfl⟩ := List.append_of_mem hmem
  rw [findEntry_record, List.lookup_eq_some_iff]
  refine ⟨before, after, rfl, fun f hf => ?_⟩
  rw [List.map_append, List.nodup_append] at h
  simpa using (h.2.2 f.1 (List.mem_map_of_mem hf) key (by simp)).symm

/-- Everything that is written for a workload. -/
def entry (l : StateLayout α) (id : WorkloadName) (state : α) : List (String × Document) :=
  ("annotations", record ((l.labels state).pairs.map fun p => (p.1, scalar p.2))) ::
    ("name", scalar id.text) :: (l.numbers state).map fun q => (q.1, scalar (toString q.2))

/-- Everything has a key of its own. -/
def HasDistinctKeys (l : StateLayout α) : Prop :=
  ∀ state, ("annotations" :: "name" :: (l.numbers state).map Prod.fst).Nodup

theorem isEntry_entry (h : l.HasDistinctKeys) (id : WorkloadName) (state : α) :
    l.IsEntry ((l.entry id state).map fun f => (scalar f.1, f.2)) id state := by
  have hkeys : ((l.entry id state).map Prod.fst).Nodup := by
    simpa only [entry, List.map_cons, List.map_map, Function.comp_def] using h state
  refine ⟨findEntry_of_mem hkeys (by simp [entry]), ?_, .inl ⟨_, ?_, _, .refl _, rfl⟩⟩
  · intro q hq
    refine .inl (findEntry_of_mem hkeys (List.mem_cons_of_mem _ (List.mem_cons_of_mem _ ?_)))
    exact List.mem_map.mpr ⟨q, hq, rfl⟩
  · exact findEntry_of_mem hkeys List.mem_cons_self

/-- The section with everything that is written for an assignment. -/
def writtenSection (l : StateLayout α) (assignment : Assignment α) : Document :=
  .sequence (assignment.entries.map fun e => record (l.entry e.1 e.2))

theorem isSection_writtenSection (h : l.HasDistinctKeys) {root : Document}
    {assignment : Assignment α} (hfield : root.field? (Snapshot.sectionKey l.kind) =
      .ok (some (l.writtenSection assignment))) : l.IsSection root assignment := by
  refine .inl ⟨assignment.entries,
    assignment.entries.map fun e => (l.entry e.1 e.2).map fun f => (scalar f.1, f.2), .refl _,
    ?_, ?_⟩
  · rw [hfield, writtenSection, List.map_map]
    rfl
  · rw [List.forall₂_map_left_iff, List.forall₂_same]
    exact fun e _ => isEntry_entry h e.1 e.2

end StateLayout

/-! ### Snapshots -/

namespace Snapshot

/-- A document describes states of workloads of both kinds. -/
structure Describes (root : Document) (daemonSets : Assignment ObservedDaemonSet)
    (deployments : Assignment ObservedDeployment) : Prop where
  daemonSets : ObservedDaemonSet.layout.IsSection root daemonSets
  deployments : ObservedDeployment.layout.IsSection root deployments

/-- The document with everything that is written for states of workloads. -/
def document (daemonSets : Assignment ObservedDaemonSet)
    (deployments : Assignment ObservedDeployment) : Document :=
  record
    [(sectionKey .daemonSet, ObservedDaemonSet.layout.writtenSection daemonSets),
      (sectionKey .deployment, ObservedDeployment.layout.writtenSection deployments)]

/-- All states of workloads can be described. -/
theorem describes_document (daemonSets : Assignment ObservedDaemonSet)
    (deployments : Assignment ObservedDeployment) :
    Describes (document daemonSets deployments) daemonSets deployments where
  daemonSets := StateLayout.isSection_writtenSection
    (by intro s; simp [ObservedDaemonSet.layout]) rfl
  deployments := StateLayout.isSection_writtenSection
    (by intro s; simp [ObservedDeployment.layout]) rfl

/-! ### The snapshot and the table -/

/-- A rollout depends on the states that are read, and not on why one cannot be read. -/
theorem survey_congr {i j : Inspector} {daemonSets deployments : List WorkloadName}
    (hdaemonSet : ∀ id ∈ daemonSets, (i.daemonSet id).toOption = (j.daemonSet id).toOption)
    (hdeployment : ∀ id ∈ deployments, (i.deployment id).toOption = (j.deployment id).toOption)
    (release : String) : Rollout.survey i daemonSets deployments release =
      Rollout.survey j daemonSets deployments release := by
  have hfirst : ∀ r, ∀ id ∈ daemonSets,
      Rollout.addDaemonSet i release r id = Rollout.addDaemonSet j release r id := by
    intro r id hid
    have hsame := hdaemonSet id hid
    unfold Rollout.addDaemonSet
    cases hi : i.daemonSet id <;> cases hj : j.daemonSet id <;> simp_all [Except.toOption]
  have hsecond : ∀ r, ∀ id ∈ deployments,
      Rollout.addDeployment i release r id = Rollout.addDeployment j release r id := by
    intro r id hid
    have hsame := hdeployment id hid
    unfold Rollout.addDeployment
    cases hi : i.deployment id <;> cases hj : j.deployment id <;> simp_all [Except.toOption]
  rw [Rollout.survey, Rollout.survey, List.foldl_ext _ _ _ hfirst, List.foldl_ext _ _ _ hsecond]

variable {tree : FileTree} {path : String} {root : Document}
  {daemonSets : Assignment ObservedDaemonSet} {deployments : Assignment ObservedDeployment}

/-- **A snapshot file and a table are read alike**, whatever the format of the file: for each name
that can be parsed both give the same state or both give none, for either kind, and every rollout is
the same. -/
theorem inspector_agrees [DocumentFormat] (hload : tree.load? path = .ok root)
    (hroot : Describes root daemonSets deployments) :
    (∀ id : WorkloadName, id.IsParsed →
      ((inspector tree path).daemonSet id).toOption =
        ((WorkloadTable.holding daemonSets deployments).inspector.daemonSet id).toOption ∧
      ((inspector tree path).deployment id).toOption =
        ((WorkloadTable.holding daemonSets deployments).inspector.deployment id).toOption) ∧
    ∀ ids jds : List WorkloadName, (∀ id ∈ ids ++ jds, id.IsParsed) → ∀ release,
      Rollout.survey (inspector tree path) ids jds release =
        Rollout.survey (WorkloadTable.holding daemonSets deployments).inspector ids jds
          release := by
  have hdaemonSet : ∀ id : WorkloadName, id.IsParsed →
      ((inspector tree path).daemonSet id).toOption =
        ((WorkloadTable.holding daemonSets deployments).inspector.daemonSet id).toOption := by
    intro id hid
    have hfetch :=
      StateLayout.toOption_fetch StateLayout.isReadBy_readDaemonSet hroot.daemonSets hload hid
    exact hfetch.trans (WorkloadTable.daemonSet_holding ..).symm
  have hdeployment : ∀ id : WorkloadName, id.IsParsed →
      ((inspector tree path).deployment id).toOption =
        ((WorkloadTable.holding daemonSets deployments).inspector.deployment id).toOption := by
    intro id hid
    have hfetch :=
      StateLayout.toOption_fetch StateLayout.isReadBy_readDeployment hroot.deployments hload hid
    exact hfetch.trans (WorkloadTable.deployment_holding ..).symm
  refine ⟨fun id hid => ⟨hdaemonSet id hid, hdeployment id hid⟩, fun ids jds hids release => ?_⟩
  refine survey_congr (fun id hid => hdaemonSet id ?_) (fun id hid => hdeployment id ?_) release
  · exact hids id (List.mem_append_left _ hid)
  · exact hids id (List.mem_append_right _ hid)

open scoped Json in
/-- Two daemon sets in another order, with labels in another order and zeros left out, and no
section for deployments. -/
theorem inspector_agrees_reordered :
    let dns : WorkloadName := ⟨"openshift-dns", "dns"⟩
    let node : WorkloadName := ⟨"", "node"⟩
    let labels : Annotations := .ofList [(Annotations.versionKey, "4.1.0"), ("owner", "null")]
    let daemonSets : Assignment ObservedDaemonSet :=
      { entries := [(dns, { generation := -3, desired := 8, annotations := labels }), (node, {})]
        nodup := by decide
        isParsed := by
          simp only [List.forall_mem_cons]
          exact ⟨⟨dns.text, by decide⟩, ⟨node.text, by decide⟩, by simp⟩ }
    let deployments : Assignment ObservedDeployment :=
      { entries := [], nodup := by decide, isParsed := by simp }
    let root : Document := record
      [("daemonsets", .sequence
        [record [("available", scalar "0"), ("name", scalar "node")],
          record
            [("desired", scalar "8"), ("name", scalar "openshift-dns/dns"),
              ("annotations", record
                [(Annotations.versionKey, scalar "4.1.0"), ("owner", scalar "null")]),
              ("generation", scalar "-3")]])]
    let tree := Json.treeOf "snapshot.yaml" root
    dns.IsParsed ∧ ((inspector tree "snapshot.yaml").daemonSet dns).toOption =
      ((WorkloadTable.holding daemonSets deployments).inspector.daemonSet dns).toOption := by
  intro dns node labels daemonSets deployments root tree
  have hload : tree.load? "snapshot.yaml" = .ok root := Json.load?_treeOf rfl rfl rfl
  have hdns : dns.IsParsed := ⟨dns.text, by decide⟩
  have hroot : Describes root daemonSets deployments := by
    refine ⟨.inl ⟨[(node, {}), (dns, _)], [_, _], .swap .., rfl, .cons ?_ (.cons ?_ .nil)⟩,
      .inr ⟨rfl, rfl⟩⟩
    · refine ⟨rfl, ?_, .inr ⟨rfl, rfl⟩⟩
      simp only [ObservedDaemonSet.layout, List.forall_mem_cons]
      exact ⟨.inr ⟨rfl, rfl⟩, .inr ⟨rfl, rfl⟩, .inr ⟨rfl, rfl⟩, .inr ⟨rfl, rfl⟩, .inl rfl,
        .inr ⟨rfl, rfl⟩, by simp⟩
    · refine ⟨rfl, ?_, .inl ⟨_, rfl, labels.pairs.reverse, labels.pairs.reverse_perm, rfl⟩⟩
      simp only [ObservedDaemonSet.layout, List.forall_mem_cons]
      exact ⟨.inl rfl, .inr ⟨rfl, rfl⟩, .inl rfl, .inr ⟨rfl, rfl⟩, .inr ⟨rfl, rfl⟩,
        .inr ⟨rfl, rfl⟩, by simp⟩
  exact ⟨hdns, ((inspector_agrees hload hroot).1 dns hdns).1⟩

end Snapshot

end OperatorHealth

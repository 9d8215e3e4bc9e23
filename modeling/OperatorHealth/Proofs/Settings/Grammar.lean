import Mathlib.Algebra.Group.Int.Defs
import Mathlib.Algebra.Group.Nat.Defs
import OperatorHealth.Proofs.Document.Reading
import OperatorHealth.Proofs.Json.Files
import OperatorHealth.Proofs.Workload.Name
import OperatorHealth.Settings.Load

/-!
# The documents of settings

A document gives settings if each of them stands at its path, or may be left out and is left out.
Settings that are loaded are those that the document in the file gives. Two numbers have bounds. The
capacity of the queue is kept as it is written. The interval is checked as it is written, in 64
bits, and kept in 32 bits, so that an interval of `2 ^ 32` or more is kept as its remainder, which
may be anything, zero as well.

## Main definitions

* `Settings.Denotes`: the settings that a document gives.
* `Settings.KeepsInterval`: what is kept of an interval.

## Main results

* `Settings.ofDocument_eq_ok_iff`: documents that give settings.
* `Settings.load_eq_ok_iff`: files that give settings.
* `Settings.load_faithful`: settings that are loaded against what is written.
-/

namespace OperatorHealth

theorem LogLevel.ofText?_eq_some_iff {text : String} {level : LogLevel} :
    ofText? text = some level ↔ text = level.text := by
  constructor
  · intro h
    rw [LogLevel.ofText?, List.find?_eq_some_iff_append, beq_iff_eq] at h
    exact h.1.symm
  · rintro rfl
    cases level <;> decide

namespace Settings

open Document

variable {α : Type} {release : Option String} {root node d : Document} {key field text : String}
  {tree : FileTree} {path : String} {s : Settings}

/-! ### What a document gives -/

/-- What is kept of an interval: of one that is long enough, the remainder in 32 bits. -/
def KeepsInterval (kept : UInt32) (d : Document) : Prop :=
  ∃ n, d.Spells n ∧ 100 ≤ n ∧ n < 2 ^ 63 ∧ (kept.toNat : Int) = n % 2 ^ 32

/-- A node lists names of workloads: a sequence of texts, each of which is parsed. -/
def ListsNames (names : List String) (d : Document) : Prop :=
  ∃ items, d = sequence items ∧ List.Forall₂ Says items names ∧
    ∀ text ∈ names, ∃ id, WorkloadName.parse? text = .ok id

/-- A node gives one of the related objects. -/
structure DenotesReference (d : Document) (r : ObjectReference) : Prop where
  group : d.MayHold ["group"] (r.group = "") (·.Says r.group)
  resource : d.HoldsAt ["resource"] (scalar r.resource)
  ns : d.MayHold ["namespace"] (r.ns = "") (·.Says r.ns)
  name : d.HoldsAt ["name"] (scalar r.name)

/-- A node lists related objects. -/
def ListsReferences (rs : List ObjectReference) (d : Document) : Prop :=
  ∃ items, d = sequence items ∧ List.Forall₂ DenotesReference items rs

/-- A document gives settings, where `release` takes the place of the release if it is given. -/
structure Denotes (release : Option String) (root : Document) (s : Settings) : Prop where
  appName : root.MayHold ["app_name"] (s.appName = "OperatorStatusCore") (·.Says s.appName)
  version : root.MayHold ["version"] (s.version = "1.0.0") (·.Says s.version)
  operatorName : root.HoldsAt ["cluster_operator", "name"] (scalar s.operatorName)
  operatorName_ne : s.operatorName ≠ ""
  release : ∃ written, s.release = release.getD written ∧
    root.MayHold ["cluster_operator", "release_version"] (written = "") (·.Says written)
  queueCapacity : root.MayHold ["publisher", "queue_capacity"] (s.queueCapacity = 5) fun d =>
    d.Spells s.queueCapacity ∧ 1 ≤ s.queueCapacity ∧ s.queueCapacity < 2 ^ 63
  logLevel : root.MayHold ["logging", "level"] (s.logLevel = .info) (·.Says s.logLevel.text)
  storePath : root.HoldsAt ["store", "path"] (scalar s.storePath)
  stateFile : root.HoldsAt ["workloads", "state_file"] (scalar s.stateFile)
  syncInterval : root.MayHold ["workloads", "sync_interval_ms"] (s.syncInterval = 2000)
    (KeepsInterval s.syncInterval)
  daemonSets : root.MayHold ["workloads", "daemonsets"] (s.daemonSets = [])
    (ListsNames s.daemonSets)
  deployments : root.MayHold ["workloads", "deployments"] (s.deployments = [])
    (ListsNames s.deployments)
  relatedObjects : root.MayHold ["related_objects"] (s.relatedObjects = [])
    (ListsReferences s.relatedObjects)

/-! ### Fields -/

theorem field?_eq_ok_iff {o : Option Document} :
    Settings.field? key node = .ok o ↔ node.field? key = .ok o := by
  rw [Settings.field?, Except.mapError_eq_ok]

/-- A field that may be left out. -/
theorem field?_bind_eq_ok_iff {g : Option Document → Except SettingsError α} {a : α} :
    (Settings.field? key node >>= g) = .ok a ↔
      node.MayHold [key] (g none = .ok a) (fun d => g (some d) = .ok a) := by
  simp only [Except.bind_eq_ok, field?_eq_ok_iff, Option.exists, MayHold,
    field?_eq_ok_none_iff, field?_eq_ok_some_iff]

theorem convert_eq_ok_iff {conversion : Document → Except NodeError α} {a : α} :
    convert field conversion d = .ok a ↔ conversion d = .ok a := by
  rw [convert]
  split <;> simp_all

theorem required_eq_ok_iff :
    required key field node = .ok d ↔ node.HoldsAt [key] d ∧ d ≠ .null := by
  have hgiven (v : Document) : (if v.isNull then .error (.missingField field) else .ok v) =
      (.ok d : Except SettingsError Document) ↔ v = d ∧ d ≠ .null := by
    cases v <;> grind [isNull]
  simp only [required, field?_bind_eq_ok_iff, MayHold, hgiven]
  grind

theorem requiredText_eq_ok_iff :
    requiredText key field node = .ok text ↔ node.HoldsAt [key] (scalar text) := by
  simp only [requiredText, Except.bind_eq_ok, required_eq_ok_iff, convert_eq_ok_iff,
    text_eq_ok_iff_says]
  constructor
  · rintro ⟨d, ⟨hd, hnull⟩, hsays⟩
    cases hsays with
    | scalar => exact hd
    | null => exact absurd rfl hnull
  · exact fun h => ⟨_, ⟨h, nofun⟩, .scalar text⟩

theorem textOr_eq_ok_iff {default : String} : textOr default key field node = .ok text ↔
    node.MayHold [key] (text = default) (·.Says text) := by
  simp only [textOr, field?_bind_eq_ok_iff, convert_eq_ok_iff, text_eq_ok_iff_says,
    Except.ok.injEq, eq_comm (a := default)]

/-! ### Sections -/

theorem readOperator_eq_ok_iff {name written : String} :
    readOperator root = .ok (name, written) ↔
      root.HoldsAt ["cluster_operator", "name"] (scalar name) ∧ name ≠ "" ∧
        root.MayHold ["cluster_operator", "release_version"] (written = "") (·.Says written) := by
  simp only [readOperator, Except.bind_eq_ok, required_eq_ok_iff, requiredText_eq_ok_iff]
  constructor
  · rintro ⟨v, ⟨hv, -⟩, name', hname, h⟩
    split at h
    · cases h
    · simp only [Except.bind_eq_ok, textOr_eq_ok_iff, Except.pure_eq_ok, Prod.mk.injEq] at h
      obtain ⟨written', hwritten, rfl, rfl⟩ := h
      exact ⟨hv.holdsAt_cons_iff.mpr hname, ‹_›, hv.mayHold_cons_iff.mpr hwritten⟩
  · rintro ⟨hname, hne, hwritten⟩
    obtain ⟨v, hv, hnull⟩ := hname.exists_section
    refine ⟨v, ⟨hv, hnull⟩, name, hv.holdsAt_cons_iff.mp hname, ?_⟩
    simp only [if_neg hne, Except.bind_eq_ok, textOr_eq_ok_iff, Except.pure_eq_ok]
    exact ⟨written, hv.mayHold_cons_iff.mp hwritten, rfl⟩

/-- A number that is checked as it is written. -/
theorem atLeast_eq_ok_iff {bound : Int64} {e : SettingsError} {f : Int64 → α} {a : α} :
    (convert field Document.int64 d >>= fun n => if n < bound then .error e else pure (f n)) =
      .ok a ↔ ∃ n, d.Spells n ∧ bound.toInt ≤ n ∧ n < 2 ^ 63 ∧ f (.ofInt n) = a := by
  have hbound (n : Int64) : (if n < bound then .error e else pure (f n)) = Except.ok a ↔
      bound.toInt ≤ n.toInt ∧ f n = a := by
    rw [← Int64.le_iff_toInt_le, ← Int64.not_lt]
    split <;> simp_all [Except.pure_eq_ok]
  simp only [Except.bind_eq_ok, convert_eq_ok_iff, int64_eq_ok_iff, hbound]
  constructor
  · rintro ⟨n, hn, hle, hf⟩
    exact ⟨n.toInt, hn, hle, n.toInt_lt, by rwa [Int64.ofInt_toInt]⟩
  · rintro ⟨n, hn, hle, hlt, hf⟩
    have hfits := Int64.toInt_ofInt_of_le (Int.le_trans bound.le_toInt hle) hlt
    exact ⟨.ofInt n, hfits.symm ▸ hn, hfits.symm ▸ hle, hf⟩

theorem readCapacity_eq_ok_iff {n : Nat} : readCapacity root = .ok n ↔
    root.MayHold ["publisher", "queue_capacity"] (n = 5) fun d =>
      d.Spells n ∧ 1 ≤ n ∧ n < 2 ^ 63 := by
  rw [mayHold_cons_iff]
  have hcapacity (d : Document) : (∃ m, d.Spells m ∧ (1 : Int64).toInt ≤ m ∧ m < 2 ^ 63 ∧
      (Int64.ofInt m).toInt.toNat = n) ↔ d.Spells n ∧ 1 ≤ n ∧ n < 2 ^ 63 := by
    have hone : (1 : Int64).toInt = 1 := rfl
    constructor
    · rintro ⟨m, hm, hle, hlt, rfl⟩
      rw [Int64.toInt_ofInt_of_le (by omega) hlt, Int.toNat_of_nonneg (by omega)]
      exact ⟨hm, by omega, by omega⟩
    · rintro ⟨hn, hle, hlt⟩
      refine ⟨n, hn, by omega, by omega, ?_⟩
      rw [Int64.toInt_ofInt_of_le (by omega) (by omega), Int.toNat_natCast]
  simp only [readCapacity, field?_bind_eq_ok_iff, atLeast_eq_ok_iff, hcapacity,
    Except.pure_eq_ok, eq_comm (a := 5)]

theorem readLogLevel_eq_ok_iff {level : LogLevel} : readLogLevel root = .ok level ↔
    root.MayHold ["logging", "level"] (level = .info) (·.Says level.text) := by
  rw [mayHold_cons_iff]
  simp only [readLogLevel, field?_bind_eq_ok_iff, Except.pure_eq_ok, eq_comm (a := LogLevel.info)]
  refine mayHold_congr fun v => mayHold_congr fun d => ?_
  simp only [Except.bind_eq_ok, convert_eq_ok_iff, text_eq_ok_iff_says]
  constructor
  · rintro ⟨text, htext, h⟩
    split at h
    · rename_i known hknown
      cases h
      rwa [← LogLevel.ofText?_eq_some_iff.mp hknown]
    · cases h
  · intro h
    exact ⟨level.text, h, by rw [LogLevel.ofText?_eq_some_iff.mpr rfl]; rfl⟩

theorem readStorePath_eq_ok_iff :
    readStorePath root = .ok text ↔ root.HoldsAt ["store", "path"] (scalar text) := by
  simp only [readStorePath, Except.bind_eq_ok, required_eq_ok_iff, requiredText_eq_ok_iff]
  constructor
  · rintro ⟨v, ⟨hv, -⟩, h⟩
    exact hv.holdsAt_cons_iff.mpr h
  · intro h
    obtain ⟨v, hv, hnull⟩ := h.exists_section
    exact ⟨v, ⟨hv, hnull⟩, hv.holdsAt_cons_iff.mp h⟩

theorem readInterval_eq_ok_iff {kept : UInt32} : readInterval node = .ok kept ↔
    node.MayHold ["sync_interval_ms"] (kept = 2000) (KeepsInterval kept) := by
  -- only the lower bound is checked, and the upper half of the word is dropped
  have hkept (n : Int) (hle : 100 ≤ n) (hlt : n < 2 ^ 63) :
      ((Int64.ofInt n).toUInt64.toUInt32.toNat : Int) = n % 2 ^ 32 := by
    have hfits := Int64.toInt_ofInt_of_le (n := n) (by omega) hlt
    have hnonneg : 0 ≤ Int64.ofInt n :=
      Int64.le_iff_toInt_le.mpr (by rw [Int64.toInt_zero]; omega)
    rw [UInt64.toNat_toUInt32, Int64.toNat_toUInt64_of_le hnonneg, ← Int64.toNat_toInt, hfits]
    omega
  have hinterval (d : Document) : (∃ n, d.Spells n ∧ (100 : Int64).toInt ≤ n ∧ n < 2 ^ 63 ∧
      (Int64.ofInt n).toUInt64.toUInt32 = kept) ↔ KeepsInterval kept d := by
    refine exists_congr fun n => and_congr_right fun _ => and_congr_right fun hle =>
      and_congr_right fun hlt => ?_
    rw [← hkept n hle hlt, Int.natCast_inj, UInt32.toNat_inj, eq_comm]
  simp only [readInterval, field?_bind_eq_ok_iff, atLeast_eq_ok_iff, hinterval,
    Except.pure_eq_ok, eq_comm (a := (2000 : UInt32))]

theorem readNames_eq_ok_iff {names : List String} : readNames key field node = .ok names ↔
    node.MayHold [key] (names = []) (ListsNames names) := by
  have hnames (d : Document) : (do
      let texts ← convert field (Document.list Document.text) d
      let _ ← (WorkloadName.parseAll? texts).mapError (SettingsError.badWorkload field)
      return texts) = .ok names ↔ ListsNames names d := by
    simp only [Except.bind_eq_ok, convert_eq_ok_iff, list_eq_ok_iff, text_eq_ok_iff_says,
      Except.mapError_eq_ok, Except.pure_eq_ok, ListsNames, ← WorkloadName.exists_parseAll?_iff]
    grind
  simp only [readNames, field?_bind_eq_ok_iff, hnames, Except.pure_eq_ok,
    eq_comm (a := ([] : List String))]

theorem readReference_eq_ok_iff {r : ObjectReference} :
    readReference field d = .ok r ↔ DenotesReference d r := by
  simp only [readReference, Except.bind_eq_ok, textOr_eq_ok_iff, requiredText_eq_ok_iff,
    Except.pure_eq_ok]
  constructor
  · rintro ⟨group, hgroup, resource, hresource, ns, hns, name, hname, rfl⟩
    exact ⟨hgroup, hresource, hns, hname⟩
  · rintro ⟨hgroup, hresource, hns, hname⟩
    exact ⟨_, hgroup, _, hresource, _, hns, _, hname, rfl⟩

theorem readReferencesFrom_eq_ok_iff {i : Nat} {items : List Document}
    {rs : List ObjectReference} :
    readReferencesFrom i items = .ok rs ↔ List.Forall₂ DenotesReference items rs := by
  induction items generalizing i rs with
  | nil => cases rs <;> simp [readReferencesFrom]
  | cons d items ih =>
    simp only [readReferencesFrom, Except.bind_eq_ok, readReference_eq_ok_iff, ih,
      Except.pure_eq_ok]
    constructor
    · rintro ⟨r, hr, rs', hrs, rfl⟩
      exact .cons hr hrs
    · rintro (_ | ⟨hr, hrs⟩)
      exact ⟨_, hr, _, hrs, rfl⟩

theorem readReferences_eq_ok_iff {rs : List ObjectReference} : readReferences root = .ok rs ↔
    root.MayHold ["related_objects"] (rs = []) (ListsReferences rs) := by
  simp only [readReferences, field?_bind_eq_ok_iff, Except.pure_eq_ok,
    eq_comm (a := ([] : List ObjectReference))]
  refine mayHold_congr fun d => ?_
  cases d <;> simp [ListsReferences, readReferencesFrom_eq_ok_iff]

/-! ### Documents and files -/

/-- A document gives settings exactly if they are read from it. -/
theorem ofDocument_eq_ok_iff : ofDocument release root = .ok s ↔ Denotes release root s := by
  simp only [ofDocument, Except.bind_eq_ok, Except.pure_eq_ok, textOr_eq_ok_iff,
    readCapacity_eq_ok_iff, readLogLevel_eq_ok_iff, readStorePath_eq_ok_iff, required_eq_ok_iff,
    requiredText_eq_ok_iff, readInterval_eq_ok_iff, readNames_eq_ok_iff,
    readReferences_eq_ok_iff, Prod.exists, readOperator_eq_ok_iff]
  constructor
  · rintro ⟨appName, happName, version, hversion, name, written, ⟨hname, hne, hwritten⟩,
      capacity, hcapacity, level, hlevel, store, hstore, w, ⟨hw, -⟩, stateFile, hstateFile,
      interval, hinterval, daemonSets, hdaemonSets, deployments, hdeployments, related, hrelated,
      rfl⟩
    exact ⟨happName, hversion, hname, hne, ⟨written, rfl, hwritten⟩, hcapacity, hlevel, hstore,
      hw.holdsAt_cons_iff.mpr hstateFile, hw.mayHold_cons_iff.mpr hinterval,
      hw.mayHold_cons_iff.mpr hdaemonSets, hw.mayHold_cons_iff.mpr hdeployments, hrelated⟩
  · intro h
    obtain ⟨w, hw, hnull⟩ := h.stateFile.exists_section
    obtain ⟨written, hrelease, hwritten⟩ := h.release
    exact ⟨_, h.appName, _, h.version, _, written, ⟨h.operatorName, h.operatorName_ne, hwritten⟩,
      _, h.queueCapacity, _, h.logLevel, _, h.storePath, w, ⟨hw, hnull⟩, _,
      hw.holdsAt_cons_iff.mp h.stateFile, _, hw.mayHold_cons_iff.mp h.syncInterval, _,
      hw.mayHold_cons_iff.mp h.daemonSets, _, hw.mayHold_cons_iff.mp h.deployments, _,
      h.relatedObjects, by rw [← hrelease]⟩

section Load

variable [DocumentFormat]

theorem load_eq_ok_iff : load release tree path = .ok s ↔
    ∃ root, tree.load? path = .ok root ∧ Denotes release root s := by
  unfold load
  split <;> simp_all [ofDocument_eq_ok_iff]

/-- **Settings that are loaded are what is written**, in any format: each is what stands at its
path, or its default where it is left out, within its bounds. An interval that is written is at
least `100` and kept as it is exactly if it is less than `2 ^ 32`. -/
theorem load_faithful (release : Option String) (tree : FileTree) (path : String) (s : Settings) :
    (load release tree path = .ok s ↔
      ∃ root, tree.load? path = .ok root ∧ Denotes release root s) ∧
    ∀ root d n, Denotes release root s → root.HoldsAt ["workloads", "sync_interval_ms"] d →
      d.Spells n →
        ((100 ≤ s.syncInterval.toNat ∧ (s.syncInterval.toNat : Int) = n) ↔ n < 2 ^ 32) := by
  refine ⟨load_eq_ok_iff, fun root d n hroot hd hn => ?_⟩
  obtain ⟨hout, -⟩ | ⟨d', hd', n', hn', hbound, -, hkept⟩ := hroot.syncInterval
  · exact absurd hd hout.not_holdsAt
  · -- what is kept is a remainder, so it is the number that was written only if that is as small
    obtain rfl := hd.unique hd'
    obtain rfl := hn.unique hn'
    have hlt := s.syncInterval.toNat_lt
    omega

end Load

/-! ### Files in JSON -/

open scoped Json

/-- A document with few settings and an interval. -/
def documentWith (interval : String) : Document := record
  [("cluster_operator", record [("name", scalar "network")]),
    ("store", record [("path", scalar "store")]),
    ("workloads", record
      [("state_file", scalar "snapshot.yaml"), ("sync_interval_ms", scalar interval),
        ("daemonsets", sequence [scalar "openshift-dns/dns", .null])])]

/-- The tree with this document in a file. -/
def treeWith (interval : String) : FileTree := Json.treeOf "settings.yaml" (documentWith interval)

theorem load?_treeWith (interval : String) :
    (treeWith interval).load? "settings.yaml" = .ok (documentWith interval) :=
  Json.load?_treeOf rfl rfl rfl

/-- The least interval, in hexadecimal. -/
theorem load_faithful_least : ∃ s, load none (treeWith "0x64") "settings.yaml" = .ok s ∧
    Denotes none (documentWith "0x64") s ∧ 100 ≤ s.syncInterval.toNat ∧
      (s.syncInterval.toNat : Int) = 100 := by
  have hsome : (ofDocument none (documentWith "0x64")).toOption.isSome := by decide +kernel
  obtain ⟨s, hs⟩ := Option.isSome_iff_exists.mp hsome
  have hdenotes := ofDocument_eq_ok_iff.mp (Except.toOption_eq_some.mp hs)
  obtain ⟨hgiven, hfaithful⟩ := load_faithful none (treeWith "0x64") "settings.yaml" s
  have hload := hgiven.mpr ⟨_, load?_treeWith "0x64", hdenotes⟩
  have hspells : (scalar "0x64").Spells 100 := ⟨"0x64", rfl, by decide⟩
  have hinterval := (hfaithful _ _ _ hdenotes ⟨_, rfl, _, rfl, rfl⟩ hspells).mpr (by decide)
  exact ⟨s, hload, hdenotes, hinterval⟩

/-- An interval that is accepted and kept as zero. -/
theorem not_faithful_wrapped : ∃ s d,
    (treeWith "4294967296").load? "settings.yaml" = .ok (documentWith "4294967296") ∧
      load none (treeWith "4294967296") "settings.yaml" = .ok s ∧
      (documentWith "4294967296").HoldsAt ["workloads", "sync_interval_ms"] d ∧
      d.Spells 4294967296 ∧ s.syncInterval = 0 := by
  have hread := load?_treeWith "4294967296"
  have hkept : (ofDocument none (documentWith "4294967296")).toOption.map (·.syncInterval) =
      some 0 := by decide +kernel
  obtain ⟨s, hs, hzero⟩ := Option.map_eq_some_iff.mp hkept
  have hdenotes := ofDocument_eq_ok_iff.mp (Except.toOption_eq_some.mp hs)
  exact ⟨s, scalar "4294967296", hread, load_eq_ok_iff.mpr ⟨_, hread, hdenotes⟩,
    ⟨_, rfl, _, rfl, rfl⟩, ⟨_, rfl, by decide⟩, hzero⟩

end Settings

end OperatorHealth

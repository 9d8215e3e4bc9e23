import OperatorHealth.Proofs.Settings.Rejection

/-!
# A release from outside

A release that is given from outside, by the environment, takes the place of the one that is
written, and nothing else about the settings depends on it. What is written is read and checked all
the same, so a file is rejected with it exactly if it is rejected without it, and for the same
reason. That holds even if what is wrong is the release that is written, which is not used.

## Main definitions

* `Settings.override`: settings with a release from outside, if one is given.

## Main results

* `Settings.denotes_iff_override`: what a document gives, with a release from outside and without.
* `Settings.load_overridden`: what is loaded from a file, with a release from outside and without.
-/

namespace OperatorHealth.Settings

open Document

variable {given : Option String} {root : Document} {tree : FileTree} {path : String} {s : Settings}

/-- The settings with a release from outside, if one is given. -/
def override (given : Option String) (s : Settings) : Settings :=
  { s with release := given.getD s.release }

/-- Of what a document gives, only the release depends on one from outside. -/
theorem denotes_iff_override :
    Denotes given root s ↔ ∃ plain, Denotes none root plain ∧ s = plain.override given := by
  constructor
  · intro h
    obtain ⟨written, hrelease, hwritten⟩ := h.release
    -- without a release from outside, the one that is written stays
    refine ⟨{ s with release := written }, { h with release := ⟨written, rfl, hwritten⟩ }, ?_⟩
    rw [override, ← hrelease]
  · rintro ⟨plain, h, rfl⟩
    obtain ⟨written, hrelease, hwritten⟩ := h.release
    have hplain : plain.release = written := hrelease
    exact { h with release := ⟨written, by rw [override, hplain], hwritten⟩ }

theorem load_eq_ok_iff_override [DocumentFormat] : load given tree path = .ok s ↔
    ∃ plain, load none tree path = .ok plain ∧ s = plain.override given := by
  constructor
  · intro h
    obtain ⟨root, hroot, hs⟩ := load_eq_ok_iff.mp h
    obtain ⟨plain, hplain, hs⟩ := denotes_iff_override.mp hs
    exact ⟨plain, load_eq_ok_iff.mpr ⟨root, hroot, hplain⟩, hs⟩
  · rintro ⟨plain, h, hs⟩
    obtain ⟨root, hroot, hplain⟩ := load_eq_ok_iff.mp h
    exact load_eq_ok_iff.mpr ⟨root, hroot, denotes_iff_override.mpr ⟨plain, hplain, hs⟩⟩

/-- **A release from outside changes the release and nothing else.** A file, in any format, is
rejected for the same reason with it and without it, and otherwise the settings are the same but for
the release, which is the one from outside. -/
theorem load_overridden [DocumentFormat] (release : String) (tree : FileTree) (path : String) :
    (∀ e, load (some release) tree path = .error e ↔ load none tree path = .error e) ∧
    ∀ s, load (some release) tree path = .ok s ↔
      ∃ plain, load none tree path = .ok plain ∧ s = { plain with release := release } :=
  ⟨fun _ => load_eq_error_iff.trans load_eq_error_iff.symm, fun _ => load_eq_ok_iff_override⟩

/-! ### Files in JSON -/

open scoped Json

/-- A document with few settings, and something where the release is written. -/
def releasedDocument (written : Document) : Document := record
  [("cluster_operator", record [("name", scalar "network"), ("release_version", written)]),
    ("store", record [("path", scalar "store")]),
    ("workloads", record [("state_file", scalar "snapshot.yaml")])]

theorem load_treeOf {d : Document} (given : Option String) (hkeys : d.hasTextKeys = true) :
    load given (Json.treeOf "settings.yaml" d) "settings.yaml" = ofDocument given d :=
  load_of_load? (Json.load?_treeOf hkeys rfl rfl)

/-- An empty release takes the place of the one that is written, and a list that stands in the place
of the written one is refused all the same. -/
theorem load_overridden_empty :
    (∃ s, load none (Json.treeOf "settings.yaml" (releasedDocument (scalar "4.1.0")))
        "settings.yaml" = .ok s ∧ s.release = "4.1.0" ∧
      load (some "") (Json.treeOf "settings.yaml" (releasedDocument (scalar "4.1.0")))
        "settings.yaml" = .ok { s with release := "" }) ∧
    load none (Json.treeOf "settings.yaml" (releasedDocument (sequence []))) "settings.yaml" =
      .error (.wrongType "cluster_operator.release_version") ∧
    load (some "") (Json.treeOf "settings.yaml" (releasedDocument (sequence []))) "settings.yaml" =
      .error (.wrongType "cluster_operator.release_version") := by
  have hwritten : (ofDocument none (releasedDocument (scalar "4.1.0"))).toOption.map (·.release) =
      some "4.1.0" := by decide +kernel
  have hrefused : ofDocument none (releasedDocument (sequence [])) =
      .error (.wrongType "cluster_operator.release_version") := by decide +kernel
  obtain ⟨s, hs, hrelease⟩ := Option.map_eq_some_iff.mp hwritten
  have hload := (load_treeOf none rfl).trans (Except.toOption_eq_some.mp hs)
  have herror := (load_treeOf none rfl).trans hrefused
  obtain ⟨-, hoverridden⟩ := load_overridden ""
    (Json.treeOf "settings.yaml" (releasedDocument (scalar "4.1.0"))) "settings.yaml"
  obtain ⟨hrejected, -⟩ := load_overridden ""
    (Json.treeOf "settings.yaml" (releasedDocument (sequence []))) "settings.yaml"
  exact ⟨⟨s, hload, hrelease, (hoverridden _).mpr ⟨s, hload, rfl⟩⟩, herror,
    (hrejected _).mpr herror⟩

end OperatorHealth.Settings

import Mathlib.Data.List.Sort
import OperatorHealth.Proofs.Resource.Comparison
import OperatorHealth.Workload.Annotations

/-!
# Labels in any order

Labels are put in order as they are put in, so a list of labels that are all of different keys says
the same in any order. Each key has one label, so the release that is looked up is the one in the
labels.

## Main definitions

* `Annotations.IsFor`: labels of a release.

## Main results

* `perm_foldl_of_new_keys`: what is put in one after another under different keys is all there.
* `Annotations.perm_pairs_ofList`: labels of different keys are all there.
* `Annotations.ofList_of_perm`: the labels of some annotations, in any order.
* `Annotations.version_eq_iff`: the release that is looked up.
-/

namespace OperatorHealth

/-- If putting in a pair of a new key adds it, pairs of different keys are all there, in some order,
after they were put in one after another. -/
theorem perm_foldl_of_new_keys {κ α β : Type} {f : β → List (κ × α)} {put : β → κ × α → β}
    (hput : ∀ b p, p.1 ∉ (f b).map Prod.fst → (f (put b p)).Perm (p :: f b))
    {b : β} {ps : List (κ × α)} (h : ((f b ++ ps).map Prod.fst).Nodup) :
    (f (ps.foldl put b)).Perm (f b ++ ps) := by
  induction ps generalizing b with
  | nil => simp
  | cons p ps ih =>
    have hmiddle : ((p :: (f b ++ ps)).map Prod.fst).Nodup :=
      (List.perm_middle.map Prod.fst).nodup h
    have hnew : p.1 ∉ (f b).map Prod.fst := by
      intro hmem
      refine (List.nodup_cons.mp hmiddle).1 ?_
      rw [List.map_append]
      exact List.mem_append_left _ hmem
    have hone : (f (put b p) ++ ps).Perm (f b ++ p :: ps) :=
      ((hput b p hnew).append_right ps).trans List.perm_middle.symm
    exact (ih ((hone.symm.map Prod.fst).nodup h)).trans hone

namespace Annotations

variable {key value : String} {ps : List (String × String)} {a : Annotations}

/-- Putting in a label of a new key adds it. -/
theorem perm_insertPair (h : key ∉ ps.map Prod.fst) :
    (insertPair key value ps).Perm ((key, value) :: ps) := by
  induction ps with
  | nil => exact .refl _
  | cons p ps ih =>
    simp only [List.map_cons, List.mem_cons, not_or] at h
    rw [insertPair]
    split
    · exact .refl _
    · rw [if_neg h.1]
      exact ((ih h.2).cons p).trans (.swap ..)

/-- Labels of different keys are all there, in some order. -/
theorem perm_pairs_ofList (h : (ps.map Prod.fst).Nodup) : (ofList ps).pairs.Perm ps :=
  perm_foldl_of_new_keys (f := pairs) (b := empty) (fun _ _ hnew => perm_insertPair hnew) h

theorem nodup_keys (a : Annotations) : (a.pairs.map Prod.fst).Nodup := by
  refine List.Pairwise.imp ?_ (List.pairwise_map.mpr a.sorted)
  rintro k _ hlt rfl
  exact String.lt_irrefl k hlt

theorem eq_of_pairs {b : Annotations} (h : a.pairs = b.pairs) : a = b := by
  obtain ⟨pairs, hsorted⟩ := a
  cases h
  rfl

/-- **Labels say the same in any order.** -/
theorem ofList_of_perm (h : ps.Perm a.pairs) : ofList ps = a := by
  have hperm : (ofList ps).pairs.Perm a.pairs :=
    (perm_pairs_ofList ((h.symm.map Prod.fst).nodup a.nodup_keys)).trans h
  refine eq_of_pairs (hperm.eq_of_pairwise ?_ (ofList ps).sorted a.sorted)
  intro p q _ _ hpq hqp
  exact absurd (String.lt_trans hpq hqp) (String.lt_irrefl _)

/-! ### The release in the labels -/

theorem find?_eq_some_iff : a.find? key = some value ↔ (key, value) ∈ a.pairs :=
  find?_map_snd_eq_some_iff a.nodup_keys

/-- The labels name a release. Labels that name none are of the empty one. -/
def IsFor (a : Annotations) (release : String) : Prop :=
  ("release.openshift.io/version", release) ∈ a.pairs ∨
    release = "" ∧ ∀ value, ("release.openshift.io/version", value) ∉ a.pairs

theorem version_eq_iff {release : String} : a.version = release ↔ a.IsFor release := by
  have hfound (value : String) : a.find? versionKey = some value ↔ (versionKey, value) ∈ a.pairs :=
    find?_eq_some_iff
  rw [version, IsFor, ← versionKey, ← hfound]
  simp only [← hfound]
  cases a.find? versionKey <;> simp [eq_comm]

end Annotations

end OperatorHealth

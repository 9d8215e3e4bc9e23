/-!
# Annotations

The labels of a workload: a text for each of some keys. Each key occurs once and the keys are in
order, so labels that say the same are equal.

## Main definitions

* `Annotations`: labels by key.
* `Annotations.insert`, `Annotations.ofList`, `Annotations.find?`: putting labels in and looking
  one up.
* `Annotations.version`: the release that a workload was rolled out for.

## Main results

* `Annotations.sorted_insertPair`: putting in a label keeps the keys in order.
-/

namespace OperatorHealth

/-- Labels of a workload, each key once and the keys in order. -/
structure Annotations where
  pairs : List (String × String)
  sorted : pairs.Pairwise (fun a b => a.1 < b.1)
  deriving DecidableEq

namespace Annotations

/-- No labels. -/
def empty : Annotations := ⟨[], .nil⟩

/-- A list of labels in order with one put in its place, for the one of its key if there is
one. -/
def insertPair (key value : String) : List (String × String) → List (String × String)
  | [] => [(key, value)]
  | p :: ps =>
    if key < p.1 then (key, value) :: p :: ps
    else if key = p.1 then (key, value) :: ps
    else p :: insertPair key value ps

/-- The keys after putting in a label are the new one and the old ones. -/
theorem fst_of_mem_insertPair {key value : String} {p : String × String} :
    {ps : List (String × String)} → p ∈ insertPair key value ps →
      p.1 = key ∨ ∃ q ∈ ps, q.1 = p.1
  | [], h => by
    simp only [insertPair, List.mem_singleton] at h
    exact .inl (h ▸ rfl)
  | q :: qs, h => by
    rw [insertPair] at h
    split at h
    · rcases List.mem_cons.1 h with rfl | h
      · exact .inl rfl
      · exact .inr ⟨p, h, rfl⟩
    · split at h
      · rcases List.mem_cons.1 h with rfl | h
        · exact .inl rfl
        · exact .inr ⟨p, List.mem_cons_of_mem _ h, rfl⟩
      · rcases List.mem_cons.1 h with rfl | h
        · exact .inr ⟨p, List.mem_cons_self, rfl⟩
        · exact (fst_of_mem_insertPair h).imp_right fun ⟨r, hr, he⟩ =>
            ⟨r, List.mem_cons_of_mem _ hr, he⟩

/-- Putting in a label keeps the keys in order. -/
theorem sorted_insertPair (key value : String) :
    {ps : List (String × String)} → ps.Pairwise (fun a b => a.1 < b.1) →
      (insertPair key value ps).Pairwise (fun a b => a.1 < b.1)
  | [], _ => List.pairwise_singleton ..
  | p :: ps, h => by
    obtain ⟨hp, hps⟩ := List.pairwise_cons.1 h
    rw [insertPair]
    split
    case isTrue hlt =>
      exact List.pairwise_cons.2 ⟨fun q hq => by
        rcases List.mem_cons.1 hq with rfl | hq
        · exact hlt
        · exact String.lt_trans hlt (hp q hq), h⟩
    case isFalse hlt =>
      split
      case isTrue heq => exact List.pairwise_cons.2 ⟨fun q hq => heq ▸ hp q hq, hps⟩
      case isFalse hne =>
        refine List.pairwise_cons.2 ⟨fun q hq => ?_, sorted_insertPair key value hps⟩
        rcases fst_of_mem_insertPair hq with h' | ⟨r, hr, he⟩
        · exact h' ▸ Std.lt_of_le_of_ne (String.not_lt.1 hlt) (Ne.symm hne)
        · exact he ▸ hp r hr

/-- The labels with one put in, for the one of its key if there is one. -/
def insert (a : Annotations) (key value : String) : Annotations :=
  ⟨insertPair key value a.pairs, sorted_insertPair key value a.sorted⟩

/-- The labels of a list. Of two with one key the later one counts. -/
def ofList (ps : List (String × String)) : Annotations :=
  ps.foldl (fun a p => a.insert p.1 p.2) empty

/-- The value of a key. -/
def find? (a : Annotations) (key : String) : Option String :=
  (a.pairs.find? (·.1 == key)).map Prod.snd

/-- The key of the release that a workload was rolled out for. -/
def versionKey : String := "release.openshift.io/version"

/-- The release that a workload was rolled out for, empty if it is not known. -/
def version (a : Annotations) : String := (a.find? versionKey).getD ""

end Annotations

end OperatorHealth

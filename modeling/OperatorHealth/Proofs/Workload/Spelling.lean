import Mathlib.Data.Set.Function
import OperatorHealth.Proofs.Workload.Name

/-!
# The spelling of names

A name is spelled without a slash, if it stands alone, or with one slash between its namespace and
itself. In either case no part is empty. These are the texts that can be parsed, and a name is
parsed back from its text exactly if it has a name of its own and no slash in either part.

## Main definitions

* `WorkloadName.Spells`: the texts that name workloads, with what they name.

## Main results

* `WorkloadName.parse?_eq_ok_iff_spells`, `WorkloadName.parse?_eq_error_iff`: texts that can be
  parsed, and texts that cannot.
* `WorkloadName.bijOn_text`: names that can be parsed and their texts.
* `WorkloadName.parse?_text_inverse`: parsing and writing are inverse to each other.
-/

namespace OperatorHealth.WorkloadName

variable {text : String} {n m : WorkloadName} {e : NameError}

/-- A text spells a name. -/
inductive Spells : String → WorkloadName → Prop
  /-- A name without a namespace stands alone. -/
  | alone (name : String) (hname : name ≠ "") (hslash : '/' ∉ name.toList) :
      Spells name ⟨"", name⟩
  /-- One slash stands between the namespace and the name. -/
  | qualified (ns name : String) (hns : ns ≠ "") (hname : name ≠ "")
      (hslash : '/' ∉ ns.toList ∧ '/' ∉ name.toList) : Spells (ns ++ "/" ++ name) ⟨ns, name⟩

theorem spells_iff : Spells text n ↔
    n.text = text ∧ n.name ≠ "" ∧ '/' ∉ n.ns.toList ∧ '/' ∉ n.name.toList := by
  constructor
  · intro h
    cases h with
    | alone name hname hslash => exact ⟨rfl, hname, by simp, hslash⟩
    | qualified ns name hns hname hslash => exact ⟨if_neg hns, hname, hslash⟩
  · rintro ⟨rfl, hname, hslash⟩
    obtain ⟨ns, name⟩ := n
    by_cases hns : ns = ""
    · subst hns
      exact .alone name hname hslash.2
    · rw [WorkloadName.text, if_neg hns]
      exact .qualified ns name hns hname hslash

/-- **Exactly the texts that spell names are parsed**, as the names that they spell. -/
theorem parse?_eq_ok_iff_spells : parse? text = .ok n ↔ Spells text n :=
  parse?_eq_ok.trans spells_iff.symm

/-- An error says whether there was no text at all, and otherwise repeats it. -/
theorem eq_of_parse?_eq_error (h : parse? text = .error e) :
    e = if text = "" then .empty else .invalid text := by
  dsimp only [parse?] at h
  split at h
  · -- without a slash only the empty text is refused
    split at h
    · next hempty =>
      cases h
      rw [if_pos (by simpa using hempty)]
    · cases h
  · next slash rest hrest =>
    split at h
    · cases h
      rw [if_neg]
      rintro rfl
      simp at hrest
    · cases h

theorem parse?_eq_error_iff : parse? text = .error e ↔
    (∀ n, ¬ Spells text n) ∧ e = if text = "" then .empty else .invalid text := by
  constructor
  · intro h
    refine ⟨fun n hn => ?_, eq_of_parse?_eq_error h⟩
    rw [parse?_eq_ok_iff_spells.mpr hn] at h
    cases h
  · rintro ⟨hnone, rfl⟩
    cases h : parse? text with
    | ok n => exact absurd (parse?_eq_ok_iff_spells.mp h) (hnone n)
    | error e => rw [eq_of_parse?_eq_error h]

theorem parse?_text_eq_ok_iff :
    parse? n.text = .ok n ↔ n.name ≠ "" ∧ '/' ∉ n.ns.toList ∧ '/' ∉ n.name.toList := by
  rw [parse?_eq_ok]
  exact and_iff_right rfl

/-- Names that can be parsed and texts that can be parsed belong to each other. -/
theorem bijOn_text : Set.BijOn WorkloadName.text {n | n.IsParsed} {text | ∃ n, Spells text n} := by
  refine ⟨?_, fun n hn m hm h => (hn.text_inj hm).mp h, ?_⟩
  · rintro n ⟨text, htext⟩
    have hspells := parse?_eq_ok_iff_spells.mp htext
    exact ⟨n, (spells_iff.mp hspells).1 ▸ hspells⟩
  · rintro text ⟨n, hn⟩
    exact ⟨n, ⟨text, parse?_eq_ok_iff_spells.mpr hn⟩, (spells_iff.mp hn).1⟩

/-- **Parsing and writing names are inverse to each other.** A text is parsed exactly if it spells a
name, and is refused otherwise. What is parsed from a text is written as that text. A name is parsed
from what is written for it exactly if it has a name of its own and no slash in either part. So the
names that can be parsed and their texts are in bijection. -/
theorem parse?_text_inverse :
    (∀ text n, parse? text = .ok n ↔ Spells text n) ∧
    (∀ text e, parse? text = .error e ↔
      (∀ n, ¬ Spells text n) ∧ e = if text = "" then .empty else .invalid text) ∧
    (∀ text n, parse? text = .ok n → n.text = text) ∧
    (∀ n, parse? n.text = .ok n ↔ n.name ≠ "" ∧ '/' ∉ n.ns.toList ∧ '/' ∉ n.name.toList) ∧
    Set.BijOn WorkloadName.text {n | n.IsParsed} {text | ∃ n, Spells text n} :=
  ⟨fun _ _ => parse?_eq_ok_iff_spells, fun _ _ => parse?_eq_error_iff,
    fun _ _ h => (parse?_eq_ok.mp h).1, fun _ => parse?_text_eq_ok_iff, bijOn_text⟩

/-- A name with a namespace, and one that is spelled like it and cannot be parsed. -/
theorem parse?_text_inverse_slashInName :
    parse? "openshift-dns/dns" = .ok ⟨"openshift-dns", "dns"⟩ ∧
    WorkloadName.text ⟨"openshift-dns", "dns"⟩ = "openshift-dns/dns" ∧
    WorkloadName.text ⟨"", "openshift-dns/dns"⟩ = "openshift-dns/dns" ∧
    parse? (WorkloadName.text ⟨"", "openshift-dns/dns"⟩) ≠ .ok ⟨"", "openshift-dns/dns"⟩ := by
  have hparse : parse? "openshift-dns/dns" = .ok ⟨"openshift-dns", "dns"⟩ := by decide +kernel
  obtain ⟨-, -, hwritten, hback, -⟩ := parse?_text_inverse
  refine ⟨hparse, hwritten _ _ hparse, rfl, fun h => ?_⟩
  exact ((hback _).mp h).2.2 (by decide)

end OperatorHealth.WorkloadName

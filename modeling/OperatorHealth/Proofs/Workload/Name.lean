import Mathlib.Data.List.TakeWhile
import OperatorHealth.Proofs.Document.Conversion
import OperatorHealth.Workload.Name

/-!
# Names and their texts

A name that was parsed has a name of its own, and no slash in either part. It is parsed from its
own text and from no other, so names that were parsed are told apart by their texts.

## Main definitions

* `WorkloadName.IsParsed`: the names that parsing can give.

## Main results

* `WorkloadName.parse?_eq_ok`: what is parsed from a text.
* `WorkloadName.IsParsed.text_inj`: texts tell such names apart.
* `WorkloadName.exists_parseAll?_iff`, `WorkloadName.parseAll?_eq_error_iff`: several texts.
-/

namespace OperatorHealth.WorkloadName

variable {text : String} {n m : WorkloadName} {ns name : List Char}

/-- Some text is parsed as this name. -/
def IsParsed (n : WorkloadName) : Prop := ∃ text, parse? text = .ok n

/-! ### Texts without and with a slash -/

theorem parse?_of_notMem (h : '/' ∉ name) (hname : name ≠ []) :
    parse? (String.ofList name) = .ok ⟨"", String.ofList name⟩ := by
  have hdrop : name.dropWhile (· != '/') = [] := by
    rw [List.dropWhile_eq_nil_iff]
    rintro c hc
    have hne : c ≠ '/' := fun heq => h (heq ▸ hc)
    simpa using hne
  simp [parse?, hdrop, hname]

theorem parse?_append (h : '/' ∉ ns) : parse? (String.ofList (ns ++ '/' :: name)) =
    if ns = [] ∨ name = [] ∨ '/' ∈ name then .error (.invalid (String.ofList (ns ++ '/' :: name)))
    else .ok ⟨String.ofList ns, String.ofList name⟩ := by
  have hns : ∀ c ∈ ns, (c != '/') = true := by
    rintro c hc
    have hne : c ≠ '/' := fun heq => h (heq ▸ hc)
    simpa using hne
  have hdrop : (ns ++ '/' :: name).dropWhile (· != '/') = '/' :: name := by
    rw [List.dropWhile_append_of_pos hns]
    rfl
  have htake : (ns ++ '/' :: name).takeWhile (· != '/') = ns := by
    rw [List.takeWhile_append_of_pos hns]
    simp
  simp [parse?, hdrop, htake]

/-! ### Parsed names -/

theorem text_mk_append (h : ns ≠ []) :
    (WorkloadName.mk (String.ofList ns) (String.ofList name)).text =
      String.ofList (ns ++ '/' :: name) := by
  have hns : String.ofList ns ≠ "" := by simpa using h
  rw [text, if_neg hns, ← String.toList_inj]
  simp

/-- A name is parsed from its own text and no other. -/
theorem parse?_eq_ok : parse? text = .ok n ↔
    n.text = text ∧ n.name ≠ "" ∧ '/' ∉ n.ns.toList ∧ '/' ∉ n.name.toList := by
  constructor
  · intro h
    obtain ⟨cs, rfl⟩ : ∃ cs, text = String.ofList cs := ⟨text.toList, by simp⟩
    by_cases hslash : '/' ∈ cs
    · obtain ⟨ns, name, rfl, hns⟩ := List.eq_append_cons_of_mem hslash
      rw [parse?_append hns] at h
      split at h
      · cases h
      · rename_i hvalid
        obtain ⟨hne, hname, hmem⟩ : ns ≠ [] ∧ name ≠ [] ∧ '/' ∉ name := by simpa using hvalid
        cases h
        exact ⟨text_mk_append hne, by simpa using hname, by simpa using hns, by simpa using hmem⟩
    · by_cases hcs : cs = []
      · subst hcs
        cases h
      · rw [parse?_of_notMem hslash hcs] at h
        cases h
        exact ⟨rfl, by simpa using hcs, by simp, by simpa using hslash⟩
  · rintro ⟨rfl, hname, hns, hmem⟩
    by_cases hempty : n.ns = ""
    · have hparse := parse?_of_notMem hmem (by simpa using hname)
      rw [String.ofList_toList] at hparse
      rw [text, if_pos hempty, hparse, ← hempty]
    · have htext : n.text = String.ofList (n.ns.toList ++ '/' :: n.name.toList) := by
        simpa using @text_mk_append n.ns.toList n.name.toList (by simpa using hempty)
      rw [htext, parse?_append hns, if_neg (by simp [hempty, hname, hmem])]
      simp

theorem parse?_eq_ok_iff_text : parse? text = .ok n ↔ text = n.text ∧ parse? n.text = .ok n := by
  constructor
  · intro h
    obtain rfl := (parse?_eq_ok.mp h).1
    exact ⟨rfl, h⟩
  · rintro ⟨rfl, h⟩
    exact h

theorem IsParsed.parse?_text (h : n.IsParsed) : parse? n.text = .ok n := by
  obtain ⟨text, htext⟩ := h
  exact (parse?_eq_ok_iff_text.mp htext).2

/-- **Names that were parsed are told apart by their texts.** -/
theorem IsParsed.text_inj (hn : n.IsParsed) (hm : m.IsParsed) : n.text = m.text ↔ n = m := by
  constructor
  · intro h
    have hparse := hn.parse?_text
    rw [h, hm.parse?_text] at hparse
    exact (Except.ok.inj hparse).symm
  · rintro rfl
    rfl

/-! ### Several names -/

variable {texts : List String} {error : NameError}

/-- Texts are parsed if each of them is. -/
theorem exists_parseAll?_iff :
    (∃ ns, parseAll? texts = .ok ns) ↔ ∀ text ∈ texts, ∃ n, parse? text = .ok n := by
  simp only [parseAll?, Document.mapM_eq_ok]
  induction texts with
  | nil => simp
  | cons text texts ih => simp [List.forall₂_cons_left_iff, ← ih]

/-- The first text that is not parsed is what is wrong. -/
theorem parseAll?_eq_error_iff : parseAll? texts = .error error ↔
    ∃ before text after, texts = before ++ text :: after ∧
      (∀ t ∈ before, ∃ n, parse? t = .ok n) ∧ parse? text = .error error :=
  Document.mapM_eq_error

end OperatorHealth.WorkloadName

import Mathlib.Data.List.Perm.Basic
import Mathlib.Data.Option.Basic
import OperatorHealth.Proofs.Condition.Merge

/-!
# Lists of conditions that say the same

Two lists agree on a kind if both have a condition of it and say the same in it, since whenever.
Lists in which each kind occurs once, and which agree on each of them, are the same but for times
and order.

## Main definitions

* `AgreeOn`: lists that agree on a kind.
* `SameButForTimes`: lists that are the same but for times and order.
* `withoutAvailability`: the conditions of all kinds but availability.

## Main results

* `sameButForTimes_of_agreeOn`: lists that agree on all their kinds.
-/

namespace OperatorHealth

variable {k : ConditionKind} {c d : Condition} {cs ds : List Condition}

/-! ### Agreement on a kind -/

/-- Two lists have a condition of a kind, and say the same in it. -/
def AgreeOn (k : ConditionKind) (cs ds : List Condition) : Prop :=
  ∃ c d, findCondition k cs = some c ∧ findCondition k ds = some d ∧ c.SaysAs d

theorem Conveys.agreeOn (h : Conveys cs c) (h' : Conveys ds c) : AgreeOn c.kind cs ds := by
  obtain ⟨d, hd, hsame⟩ := h
  obtain ⟨d', hd', hsame'⟩ := h'
  exact ⟨d, d', hd, hd', hsame.trans hsame'.symm⟩

/-! ### Agreement but for times -/

/-- A condition without the time of its transition. -/
def Condition.untimed (c : Condition) : Condition := { c with lastTransition := .unset }

theorem Condition.SaysAs.untimed_eq (h : c.SaysAs d) (hkind : c.kind = d.kind) :
    c.untimed = d.untimed := by
  obtain ⟨hstatus, hreason, hmessage⟩ := h
  rw [untimed, untimed, hkind, hstatus, hreason, hmessage]

/-- Two lists hold the same conditions, but for times and order. -/
def SameButForTimes (cs ds : List Condition) : Prop :=
  (cs.map Condition.untimed).Perm (ds.map Condition.untimed)

instance (cs ds : List Condition) : Decidable (SameButForTimes cs ds) :=
  inferInstanceAs (Decidable (List.Perm _ _))

/-- Where no kind occurs twice, a list is what is found for its kinds. -/
theorem map_untimed_eq (h : (cs.map (·.kind)).Nodup) : (cs.map Condition.untimed).map some =
    (cs.map (·.kind)).map fun k => (findCondition k cs).map Condition.untimed := by
  rw [List.map_map, List.map_map]
  refine List.map_congr_left fun c hc => ?_
  simp only [Function.comp_apply, findCondition_of_mem h hc, Option.map_some]

/-- Lists of the same kinds, each once, that say the same of each kind. -/
theorem sameButForTimes_of_agreeOn (ks : List ConditionKind) (hks : ks.Nodup)
    (hcs : (cs.map (·.kind)).Perm ks) (hds : (ds.map (·.kind)).Perm ks)
    (h : ∀ k ∈ ks, AgreeOn k cs ds) : SameButForTimes cs ds := by
  refine (List.map_perm_map_iff (Option.some_injective Condition)).mp ?_
  rw [map_untimed_eq (hcs.nodup_iff.mpr hks), map_untimed_eq (hds.nodup_iff.mpr hks)]
  have hfound : ks.map (fun k => (findCondition k cs).map Condition.untimed) =
      ks.map fun k => (findCondition k ds).map Condition.untimed := by
    refine List.map_congr_left fun k hk => ?_
    obtain ⟨c, d, hc, hd, hsame⟩ := h k hk
    have hkind : c.kind = d.kind :=
      (mem_of_findCondition hc).2.trans (mem_of_findCondition hd).2.symm
    rw [hc, hd, Option.map_some, Option.map_some, hsame.untimed_eq hkind]
  exact ((hcs.map _).trans (hfound ▸ .refl _)).trans (hds.map _).symm

/-- A list that has every kind, each once, has no other. -/
theorem perm_all_of_mem_kinds (hnodup : (cs.map (·.kind)).Nodup)
    (h : ∀ k, k ∈ cs.map (·.kind)) : (cs.map (·.kind)).Perm ConditionKind.all := by
  refine (List.perm_ext_iff_of_nodup hnodup (by decide)).mpr fun k => ?_
  exact ⟨fun _ => by cases k <;> decide, fun _ => h k⟩

/-! ### Leaving availability aside -/

/-- The conditions of all kinds but availability. -/
def withoutAvailability (cs : List Condition) : List Condition :=
  cs.filter (·.kind ≠ .available)

theorem findCondition_withoutAvailability (hk : k ≠ .available) (cs : List Condition) :
    findCondition k (withoutAvailability cs) = findCondition k cs := by
  induction cs with
  | nil => rfl
  | cons c cs ih =>
    by_cases hc : c.kind = k
    · have hkept : c.kind ≠ .available := hc ▸ hk
      rw [withoutAvailability, List.filter_cons_of_pos (by simpa using hkept),
        findCondition_cons_of_eq hc, findCondition_cons_of_eq hc]
    · rw [findCondition_cons_of_ne hc, ← ih, withoutAvailability, List.filter_cons]
      split
      · exact findCondition_cons_of_ne hc
      · rfl

theorem map_kind_withoutAvailability (cs : List Condition) :
    (withoutAvailability cs).map (·.kind) = (cs.map (·.kind)).filter (· ≠ .available) := by
  rw [withoutAvailability, List.filter_map]
  rfl

end OperatorHealth

import Mathlib.Data.List.Basic
import Mathlib.Data.List.Induction
import OperatorHealth.Condition.Degraded

/-!
# The history of a ledger

A ledger is asked to write and to clear entries, and what it says of its tiers, where tiers are
given by codes. A request with the code of no tier is refused, and has no effect on what is answered
later. What a ledger has for a tier is what was written for it last. It shows the entry of the most
important tier that has one, so whatever is written for a tier behind another one that has an entry
is not seen.

## Main definitions

* `LedgerRequest`, `DegradedLedger.answer`: what a ledger is asked, and how it answers.
* `LedgerRequest.written?`, `standing?`: what a request writes for a tier, and what stands for it.
* `DegradedLedger.Tells`: what a ledger has to say after requests.

## Main results

* `DegradedLedger.answers_refused`: requests that are refused.
* `DegradedLedger.entry_ofRequests`: the entry of a tier is what stands for it.
* `DegradedLedger.shown_congr`: what a ledger shows depends on important tiers only.
* `DegradedLedger.history_told`: the law of histories.
-/

namespace OperatorHealth

/-! ### Tiers and their codes -/

namespace Tier

variable {n : UInt8} {t : Tier} {e : InvalidTier}

theorem mem_all (t : Tier) : t ∈ all := by cases t <;> decide

theorem ofCode?_eq_ok_iff : ofCode? n = .ok t ↔ t.code = n := by
  rw [ofCode?]
  constructor
  · intro h
    split at h
    · next u hu =>
      cases h
      simpa using List.find?_some hu
    · cases h
  · rintro rfl
    cases t <;> rfl

@[simp]
theorem ofCode?_code (t : Tier) : ofCode? t.code = .ok t := ofCode?_eq_ok_iff.mpr rfl

theorem code_injective : Function.Injective code := by
  intro t u h
  have hcode := ofCode?_code t
  rw [h, ofCode?_code] at hcode
  exact (Except.ok.inj hcode).symm

theorem ofCode?_eq_error_iff : ofCode? n = .error e ↔ (∀ t : Tier, t.code ≠ n) ∧ e = ⟨n⟩ := by
  constructor
  · intro h
    refine ⟨fun t ht => ?_, ?_⟩
    · rw [← ht, ofCode?_code] at h
      cases h
    · rw [ofCode?] at h
      split at h <;> cases h
      rfl
  · rintro ⟨hnone, rfl⟩
    cases h : ofCode? n with
    | ok t => exact absurd (ofCode?_eq_ok_iff.mp h) (hnone t)
    | error e =>
      rw [ofCode?] at h
      split at h <;> cases h
      rfl

end Tier

/-! ### Requests -/

/-- What a ledger is asked, where tiers are given by their codes. -/
inductive LedgerRequest
  /-- To write the entry of a tier, or to clear it. -/
  | write (code : UInt8) (entry : Option Condition)
  /-- To clear the entry of a tier. -/
  | clear (code : UInt8)
  /-- Whether a tier has an entry. -/
  | has (code : UInt8)
  /-- What the ledger shows. -/
  | shown
  /-- Which tier that is the entry of. -/
  | shownTier
  deriving DecidableEq, Repr

/-- The answer to a request. -/
inductive LedgerAnswer
  | refused (error : InvalidTier)
  | done
  | has (given : Bool)
  | shown (condition : Condition)
  | shownTier (tier : Option Tier)
  deriving DecidableEq, Repr

namespace LedgerRequest

/-- The code in a request. -/
def code? : LedgerRequest → Option UInt8
  | write n _ => some n
  | clear n => some n
  | has n => some n
  | shown => none
  | shownTier => none

/-- What a request writes for a tier, if it does. -/
def written? (t : Tier) : LedgerRequest → Option (Option Condition)
  | write n entry => if n = t.code then some entry else none
  | clear n => if n = t.code then some none else none
  | _ => none

/-- A request writes for one tier at most. -/
theorem written?_eq_none {r : LedgerRequest} {t u : Tier} (htu : t ≠ u)
    (h : r.written? u ≠ none) : r.written? t = none := by
  have hcode : u.code ≠ t.code := fun h => htu (Tier.code_injective h).symm
  cases r with
  | write n entry => grind [written?]
  | clear n => grind [written?]
  | _ => rfl

end LedgerRequest

/-- The condition that stands for a tier after requests: what was written for it last, if that was a
condition. -/
def standing? (t : Tier) (rs : List LedgerRequest) : Option Condition :=
  (rs.filterMap (·.written? t)).getLast?.join

/-- What stands for a tier does not depend on what is written for another one. -/
theorem standing?_filter {t u : Tier} (htu : t ≠ u) (rs : List LedgerRequest) :
    standing? t (rs.filter fun r => (r.written? u).isNone) = standing? t rs := by
  rw [standing?, standing?, List.filterMap_filter]
  congr 2
  refine List.filterMap_congr fun r _ => ?_
  cases h : r.written? u with
  | none => rfl
  | some entry => exact (LedgerRequest.written?_eq_none htu (by simp [h])).symm

namespace DegradedLedger

/-- How a ledger answers a request, and the ledger after it. -/
def answer (l : DegradedLedger) : LedgerRequest → LedgerAnswer × DegradedLedger
  | .write n entry => match l.setCode n entry with
    | .ok l' => (.done, l')
    | .error e => (.refused e, l)
  | .clear n => match l.setCode n none with
    | .ok l' => (.done, l')
    | .error e => (.refused e, l)
  | .has n => match l.hasCode n with
    | .ok given => (.has given, l)
    | .error e => (.refused e, l)
  | .shown => (.shown l.shown, l)
  | .shownTier => (.shownTier l.shownTier, l)

/-- How a ledger answers requests, one after another. -/
def answers (l : DegradedLedger) : List LedgerRequest → List LedgerAnswer
  | [] => []
  | r :: rs => (l.answer r).1 :: (l.answer r).2.answers rs

/-- The ledger after requests, when it was empty at first. -/
def ofRequests (rs : List LedgerRequest) : DegradedLedger :=
  rs.foldl (fun l r => (l.answer r).2) empty

theorem ofRequests_append_singleton (rs : List LedgerRequest) (r : LedgerRequest) :
    ofRequests (rs ++ [r]) = ((ofRequests rs).answer r).2 := by
  rw [ofRequests, List.foldl_append]
  rfl

variable {l l' : DegradedLedger} {r : LedgerRequest} {t u : Tier} {n : UInt8}

/-! ### Requests that are refused -/

/-- A request with the code of no tier is refused, and changes nothing. -/
theorem answer_of_invalid (hcode : r.code? = some n) (hinvalid : ∀ t : Tier, t.code ≠ n) :
    l.answer r = (.refused ⟨n⟩, l) := by
  have hrefused : Tier.ofCode? n = .error ⟨n⟩ := Tier.ofCode?_eq_error_iff.mpr ⟨hinvalid, rfl⟩
  cases r with
  | write m entry =>
    obtain rfl : m = n := Option.some.inj hcode
    simp [answer, setCode, hrefused, Except.map]
  | clear m =>
    obtain rfl : m = n := Option.some.inj hcode
    simp [answer, setCode, hrefused, Except.map]
  | has m =>
    obtain rfl : m = n := Option.some.inj hcode
    simp [answer, hasCode, hrefused, Except.map]
  | shown => cases hcode
  | shownTier => cases hcode

/-- Without a refused request the answers are the same, but for the refusal. -/
theorem answers_refused (l : DegradedLedger) (before after : List LedgerRequest)
    (hcode : r.code? = some n) (hinvalid : ∀ t : Tier, t.code ≠ n) :
    l.answers (before ++ r :: after) =
      (l.answers (before ++ after)).insertIdx before.length (.refused ⟨n⟩) := by
  induction before generalizing l with
  | nil => simp [answers, answer_of_invalid hcode hinvalid]
  | cons x before ih => simp [answers, ih]

/-! ### What stands -/

/-- A request writes the entry of its tier, and leaves all others alone. -/
theorem entry_answer (l : DegradedLedger) (r : LedgerRequest) (t : Tier) :
    (l.answer r).2.entry t = (r.written? t).getD (l.entry t) := by
  have hset (m : UInt8) (entry : Option Condition) :
      (match l.setCode m entry with
        | .ok l' => (LedgerAnswer.done, l')
        | .error e => (.refused e, l)).2.entry t =
      if m = t.code then entry else l.entry t := by
    cases hm : Tier.ofCode? m with
    | ok u =>
      obtain rfl := Tier.ofCode?_eq_ok_iff.mp hm
      simp [setCode, set, Except.map, Tier.code_injective.eq_iff, eq_comm (a := t)]
    | error e =>
      have hne := (Tier.ofCode?_eq_error_iff.mp hm).1 t
      simp [setCode, hm, Except.map, Ne.symm hne]
  cases r with
  | write m entry =>
    rw [answer, hset, LedgerRequest.written?]
    split <;> rfl
  | clear m =>
    rw [answer, hset, LedgerRequest.written?]
    split <;> rfl
  | has m =>
    rw [answer]
    cases l.hasCode m <;> rfl
  | shown => rfl
  | shownTier => rfl

/-- **The entry of a tier is what stands for it.** -/
theorem entry_ofRequests (rs : List LedgerRequest) (t : Tier) :
    (ofRequests rs).entry t = standing? t rs := by
  induction rs using List.reverseRecOn with
  | nil => rfl
  | append_singleton rs r ih =>
    rw [ofRequests_append_singleton, entry_answer, ih, standing?, standing?, List.filterMap_append]
    cases h : r.written? t with
    | none => simp [h]
    | some entry => simp [h]

theorem has_ofRequests (rs : List LedgerRequest) (t : Tier) :
    (ofRequests rs).has t = (standing? t rs).isSome := by
  rw [has, entry_ofRequests]

/-! ### What is shown -/

/-- A ledger shows the entry of the tier that it says it shows. -/
theorem shown_eq (l : DegradedLedger) :
    l.shown = (l.shownTier.bind l.entry).getD notDegraded := by
  have hscan (ts : List Tier) : ts.findSome? l.entry = (ts.find? l.has).bind l.entry := by
    induction ts with
    | nil => rfl
    | cons t ts ih => cases h : l.entry t <;> simp [has, h, ih]
  rw [shown, shownTier, hscan]

theorem shownTier_eq_some_iff : l.shownTier = some t ↔
    l.has t = true ∧ ∀ u, u.code < t.code → l.has u = false := by
  have hsorted : Tier.all.Pairwise (·.code < ·.code) := by decide
  rw [shownTier, List.find?_eq_some_iff_append]
  refine and_congr_right fun _ => ⟨?_, fun hbefore => ?_⟩
  · rintro ⟨before, after, hall, hbefore⟩ u hu
    have hmem := Tier.mem_all u
    rw [hall] at hsorted hmem
    -- a tier with a lower code comes before
    rcases List.mem_append.mp hmem with hmem | hmem
    · simpa using hbefore u hmem
    · have hafter := (List.pairwise_append.mp hsorted).2.1
      rcases List.mem_cons.mp hmem with rfl | hmem
      · exact absurd hu (UInt8.lt_irrefl _)
      · exact absurd hu (UInt8.lt_asymm (List.rel_of_pairwise_cons hafter hmem))
  · obtain ⟨before, after, hall⟩ := List.append_of_mem (Tier.mem_all t)
    rw [hall, List.pairwise_append] at hsorted
    refine ⟨before, after, hall, fun u hu => ?_⟩
    rw [hbefore u (hsorted.2.2 u hu t (List.mem_cons_self ..))]
    rfl

theorem shownTier_eq_none_iff : l.shownTier = none ↔ ∀ t, l.has t = false := by
  simp [shownTier, List.find?_eq_none, Tier.mem_all]

theorem entry_of_shownTier (h : l.shownTier = some t) : l.entry t = some l.shown := by
  obtain ⟨c, hc⟩ := Option.isSome_iff_exists.mp (shownTier_eq_some_iff.mp h).1
  rw [shown_eq, h, Option.bind_some, hc, Option.getD_some]

theorem shown_of_shownTier_eq_none (h : l.shownTier = none) : l.shown = notDegraded := by
  rw [shown_eq, h, Option.bind_none, Option.getD_none]

/-- A ledger shows the entry of the most important tier that has one. -/
theorem shown_cases (l : DegradedLedger) :
    (∃ t, l.entry t = some l.shown ∧ ∀ u, u.code < t.code → l.entry u = none) ∨
    ((∀ t, l.entry t = none) ∧ l.shown = notDegraded) := by
  cases h : l.shownTier with
  | some t =>
    refine .inl ⟨t, entry_of_shownTier h, fun u hu => ?_⟩
    simpa [has] using (shownTier_eq_some_iff.mp h).2 u hu
  | none =>
    refine .inr ⟨fun t => ?_, shown_of_shownTier_eq_none h⟩
    simpa [has] using shownTier_eq_none_iff.mp h t

/-- Ledgers show the same if they agree up to a tier that has an entry. -/
theorem shown_congr (hhas : l.has t = true)
    (hentry : ∀ u, u.code ≤ t.code → l'.entry u = l.entry u) :
    l'.shownTier = l.shownTier ∧ l'.shown = l.shown := by
  obtain ⟨v, hv⟩ : ∃ v, l.shownTier = some v := by
    rw [← Option.ne_none_iff_exists', ne_eq, shownTier_eq_none_iff]
    intro hnone
    rw [hnone t] at hhas
    cases hhas
  obtain ⟨hvhas, hbefore⟩ := shownTier_eq_some_iff.mp hv
  -- the tier that is shown is the given one or comes before it
  have hvt : v.code ≤ t.code := by
    rw [← UInt8.not_lt]
    intro htv
    rw [hbefore t htv] at hhas
    cases hhas
  have hsame (u : Tier) (hu : u.code ≤ v.code) : l'.has u = l.has u := by
    rw [has, has, hentry u (UInt8.le_trans hu hvt)]
  have hv' : l'.shownTier = some v := by
    refine shownTier_eq_some_iff.mpr ⟨?_, fun u hu => ?_⟩
    · rw [hsame v (UInt8.le_refl _), hvhas]
    · rw [hsame u (UInt8.le_of_lt hu), hbefore u hu]
  refine ⟨hv'.trans hv.symm, ?_⟩
  rw [shown_eq, shown_eq, hv', hv, Option.bind_some, Option.bind_some, hentry v hvt]

/-! ### Histories -/

/-- What a ledger has to say after requests. -/
structure Tells (l : DegradedLedger) (rs : List LedgerRequest) : Prop where
  /-- A tier has an entry exactly if a condition stands for it. -/
  has : ∀ t : Tier, l.hasCode t.code = .ok (standing? t rs).isSome
  /-- The tier that is shown is the one with the lowest code for which a condition stands. -/
  shownTier_eq_some : ∀ t, l.shownTier = some t ↔
    (standing? t rs).isSome = true ∧ ∀ u, u.code < t.code → standing? u rs = none
  shownTier_eq_none : l.shownTier = none ↔ ∀ t, standing? t rs = none
  /-- What is shown is the condition that stands for that tier. -/
  shown : ∀ t, l.shownTier = some t → standing? t rs = some l.shown
  /-- If no condition stands, it is shown that the operator is not degraded. -/
  shown_nothing : l.shownTier = none → l.shown =
    { kind := .degraded, status := .false, reason := "", message := "", lastTransition := .unset }

theorem tells_ofRequests (rs : List LedgerRequest) : (ofRequests rs).Tells rs where
  has t := by rw [hasCode, Tier.ofCode?_code, ← has_ofRequests]; rfl
  shownTier_eq_some t := by simp [shownTier_eq_some_iff, has_ofRequests]
  shownTier_eq_none := by simp [shownTier_eq_none_iff, has_ofRequests]
  shown t h := by rw [← entry_ofRequests, entry_of_shownTier h]
  shown_nothing h := shown_of_shownTier_eq_none h

/-- What is written for a tier is not seen as long as a condition stands for one with a lower
code. -/
theorem shown_ofRequests_congr {rs rs' : List LedgerRequest} (htu : t.code < u.code)
    (hstanding : (standing? t rs).isSome = true)
    (hrest : rs'.filter (fun r => (r.written? u).isNone) =
      rs.filter fun r => (r.written? u).isNone) :
    (ofRequests rs').shownTier = (ofRequests rs).shownTier ∧
      (ofRequests rs').shown = (ofRequests rs).shown := by
  refine shown_congr (t := t) (by rw [has_ofRequests, hstanding]) fun v hv => ?_
  have hvu : v ≠ u := by
    rintro rfl
    exact UInt8.lt_irrefl _ (UInt8.lt_of_le_of_lt hv htu)
  rw [entry_ofRequests, entry_ofRequests, ← standing?_filter hvu rs, ← hrest, standing?_filter hvu]

/-- **The history of a ledger.** A ledger is asked anything in any order, with any codes and
conditions. A request with the code of no tier is refused, and without it all other answers are the
same. After any requests the ledger has an entry for a tier exactly if what was written last for it
is a condition; it shows the one of the lowest code, or that the operator is not degraded if there
is none. So requests that differ only in what they write for a tier show the same, as long as a
condition stands for a tier with a lower code. -/
theorem history_told :
    (∀ (l : DegradedLedger) before r after n, r.code? = some n → (∀ t : Tier, t.code ≠ n) →
      l.answers (before ++ r :: after) =
        (l.answers (before ++ after)).insertIdx before.length (.refused ⟨n⟩)) ∧
    (∀ rs, (ofRequests rs).Tells rs) ∧
    ∀ (t u : Tier) rs rs', t.code < u.code → (standing? t rs).isSome = true →
      rs'.filter (fun r => (r.written? u).isNone) = rs.filter (fun r => (r.written? u).isNone) →
        (ofRequests rs').shownTier = (ofRequests rs).shownTier ∧
          (ofRequests rs').shown = (ofRequests rs).shown :=
  ⟨fun l before _ after _ hcode hinvalid => answers_refused l before after hcode hinvalid,
    tells_ofRequests, fun _ _ _ _ htu hstanding hrest =>
      shown_ofRequests_congr htu hstanding hrest⟩

/-- A failure of the cluster configuration, and one of pods that is behind it. -/
def maskedFailure : List LedgerRequest :=
  [.write 2 (some { kind := .degraded, status := .true, reason := "RolloutHung" }),
    .write 0 (some { kind := .degraded, status := .true, reason := "NoNetworkType" })]

/-- Pods are written and cleared behind a failure of the cluster configuration. Then this is cleared
as well, with a request before that is refused. -/
theorem history_told_maskedFailure :
    (ofRequests (maskedFailure ++ [.clear 2])).shown = (ofRequests maskedFailure).shown ∧
    (ofRequests maskedFailure).shownTier = some .clusterConfig ∧
    empty.answers (maskedFailure ++ .has 3 :: [.clear 0, .shownTier]) =
      [.done, .done, .refused ⟨3⟩, .done, .shownTier (some .podDeployment)] := by
  obtain ⟨hrefused, htells, hmasked⟩ := history_told
  refine ⟨(hmasked .clusterConfig .podDeployment _ _ (by decide) (by decide) rfl).2, ?_, ?_⟩
  · refine ((htells maskedFailure).shownTier_eq_some _).mpr ⟨by decide, fun u hu => ?_⟩
    cases u <;> revert hu <;> decide
  · rw [hrefused empty maskedFailure _ _ 3 rfl fun t => by cases t <;> decide]
    rfl

end DegradedLedger

end OperatorHealth

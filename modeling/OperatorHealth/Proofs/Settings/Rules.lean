import OperatorHealth.Proofs.Settings.Grammar

/-!
# Rules for documents

A rule is about what stands at a path of a document. It may ask that something stands there, and
refuses some of what may stand there. There are three ways to break it. A scalar is on the way to
the end of the path, and cannot be asked for a key. Nothing stands there, or there is a null on the
way, although something is asked for. Or what stands there is refused. The first rule of a list that
is broken says what is wrong with the document, and a reader that checks rule after rule fails with
just that.

## Main definitions

* `Document.Blocks`, `Document.BreaksOff`: paths that cannot be followed to their end.
* `Settings.Rule`, `Settings.Rule.IsBroken`, `Settings.FirstBroken`: rules, and the first of them
  that is broken.
* `Settings.Fails`: when a reader fails, and with what.

## Main results

* `Settings.Fails.bind`: one reader after another.
* `Settings.fails_field?_bind`, `Settings.fails_required_bind`: readers of a section.
-/

namespace OperatorHealth

/-! ### Paths that cannot be followed -/

namespace Document

variable {node v : Document} {key : String} {path : List String}

/-- A scalar is on the way to the end of a path. -/
def Blocks : Document → List String → Prop
  | scalar _, _ :: _ => True
  | mapping es, key :: path => ∃ v, findEntry key es = some v ∧ v.Blocks path
  | _, _ => False

/-- At the end of the first part of a path, `gap`, nothing stands, or a null. -/
def BreaksOff : Document → List String → List String → Prop
  | _, [], _ => False
  | node, key :: path, gap =>
    (node.LeavesOut [key] ∨ node.HoldsAt [key] null) ∧ gap = [key] ∨
      ∃ v rest, node.HoldsAt [key] v ∧ v ≠ null ∧ v.BreaksOff path rest ∧ gap = key :: rest

theorem blocks_nil : ¬ node.Blocks [] := by
  cases node <;> exact id

theorem blocks_cons_iff : node.Blocks (key :: path) ↔
    node.Blocks [key] ∨ ∃ v, node.HoldsAt [key] v ∧ v.Blocks path := by
  cases node <;> simp [Blocks, HoldsAt, blocks_nil]

theorem field?_eq_error_iff {e : NodeError} :
    node.field? key = .error e ↔ node.Blocks [key] ∧ e = .badSubscript := by
  cases node <;> simp [field?, Blocks, blocks_nil, eq_comm]

theorem Blocks.not_leavesOut (h : node.Blocks [key]) : ¬ node.LeavesOut [key] := by
  rw [← field?_eq_ok_none_iff, field?_eq_error_iff.mpr ⟨h, rfl⟩]
  nofun

theorem Blocks.not_holdsAt (h : node.Blocks [key]) : ¬ node.HoldsAt [key] v := by
  rw [← field?_eq_ok_some_iff, field?_eq_error_iff.mpr ⟨h, rfl⟩]
  nofun

/-- A document is asked for a key: it cannot be, or it has nothing under the key, or something. -/
theorem field?_cases (node : Document) (key : String) :
    node.Blocks [key] ∨ node.LeavesOut [key] ∨ ∃ v, node.HoldsAt [key] v := by
  cases h : node.field? key with
  | error e => exact .inl (field?_eq_error_iff.mp h).1
  | ok o =>
    cases o with
    | none => exact .inr (.inl (field?_eq_ok_none_iff.mp h))
    | some v => exact .inr (.inr ⟨v, field?_eq_ok_some_iff.mp h⟩)

end Document

namespace Settings

open Document

variable {α β : Type} {node v : Document} {key field : String} {start path gap : List String}
  {needed : Bool} {Refuses : String → Document → SettingsError → Prop} {e : SettingsError}

/-! ### Rules -/

/-- A rule for what stands at a path. It refuses some documents there, for a reason that may name
the field. -/
structure Rule where
  path : List String
  isNeeded : Bool
  Refuses : String → Document → SettingsError → Prop

namespace Rule

/-- The rule that something stands at a path, and is not refused. -/
def must (path : List String) (Refuses : String → Document → SettingsError → Prop) : Rule :=
  ⟨path, true, Refuses⟩

/-- The rule that nothing stands at a path, or what is not refused. -/
def may (path : List String) (Refuses : String → Document → SettingsError → Prop) : Rule :=
  ⟨path, false, Refuses⟩

end Rule

/-- The name of a field is made of the keys on the way to it. -/
def fieldName (path : List String) : String := ".".intercalate path

/-- A rule is broken by a document, for a reason. The document is itself at the end of the path
`start`. Where something is needed, a null does not count. -/
inductive Rule.IsBroken (rule : Rule) (start : List String) (node : Document) :
    SettingsError → Prop
  | blocked (hblocks : node.Blocks rule.path) : IsBroken rule start node (.node .badSubscript)
  | missing {gap : List String} (hneeded : rule.isNeeded = true)
      (hgap : node.BreaksOff rule.path gap) :
      IsBroken rule start node (.missingField (fieldName (start ++ gap)))
  | refused {d : Document} {e : SettingsError} (hd : node.HoldsAt rule.path d)
      (hgiven : rule.isNeeded = true → d ≠ null)
      (hrefuses : rule.Refuses (fieldName (start ++ rule.path)) d e) : IsBroken rule start node e

/-- The first rule of a list that is broken, for a reason. -/
def FirstBroken (start : List String) (node : Document) (rules : List Rule) (e : SettingsError) :
    Prop :=
  ∃ before rule after, rules = before ++ rule :: after ∧
    (∀ r ∈ before, ∀ e', ¬ r.IsBroken start node e') ∧ rule.IsBroken start node e

namespace Rule

/-! ### One key on the way -/

theorem isBroken_nil_iff : (Rule.mk [] needed Refuses).IsBroken start node e ↔
    (needed = true → node ≠ null) ∧ Refuses (fieldName start) node e := by
  constructor
  · intro h
    cases h with
    | blocked hblocks => exact absurd hblocks blocks_nil
    | missing hneeded hgap => exact hgap.elim
    | refused hd hgiven hrefuses =>
      obtain rfl : node = _ := hd
      rw [List.append_nil] at hrefuses
      exact ⟨hgiven, hrefuses⟩
  · rintro ⟨hgiven, hrefuses⟩
    exact .refused (d := node) rfl hgiven (by rwa [List.append_nil])

theorem isBroken_of_blocks (h : node.Blocks [key]) :
    (Rule.mk (key :: path) needed Refuses).IsBroken start node e ↔ e = .node .badSubscript := by
  constructor
  · intro hbroken
    cases hbroken with
    | blocked => rfl
    | missing hneeded hgap =>
      rcases hgap with ⟨hnone | hnull, -⟩ | ⟨v, rest, hv, -⟩
      · exact absurd hnone h.not_leavesOut
      · exact absurd hnull h.not_holdsAt
      · exact absurd hv h.not_holdsAt
    | refused hd =>
      obtain ⟨v, hv, -⟩ := holdsAt_cons_iff.mp hd
      exact absurd (field?_eq_ok_some_iff.mp hv) h.not_holdsAt
  · rintro rfl
    exact .blocked (blocks_cons_iff.mpr (.inl h))

theorem isBroken_of_leavesOut (h : node.LeavesOut [key]) :
    (Rule.mk (key :: path) needed Refuses).IsBroken start node e ↔
      needed = true ∧ e = .missingField (fieldName (start ++ [key])) := by
  constructor
  · intro hbroken
    cases hbroken with
    | blocked hblocks =>
      rcases blocks_cons_iff.mp hblocks with hkey | ⟨v, hv, -⟩
      · exact absurd h hkey.not_leavesOut
      · exact absurd hv h.not_holdsAt
    | missing hneeded hgap =>
      rcases hgap with ⟨-, rfl⟩ | ⟨v, rest, hv, -⟩
      · exact ⟨hneeded, rfl⟩
      · exact absurd hv h.not_holdsAt
    | refused hd =>
      obtain ⟨v, hv, -⟩ := holdsAt_cons_iff.mp hd
      exact absurd (field?_eq_ok_some_iff.mp hv) h.not_holdsAt
  · rintro ⟨hneeded, rfl⟩
    exact .missing hneeded (.inl ⟨.inl h, rfl⟩)

theorem isBroken_of_null (h : node.HoldsAt [key] null) :
    (Rule.mk (key :: path) true Refuses).IsBroken start node e ↔
      e = .missingField (fieldName (start ++ [key])) := by
  constructor
  · intro hbroken
    cases hbroken with
    | blocked hblocks =>
      rcases blocks_cons_iff.mp hblocks with hkey | ⟨v, hv, hblocks⟩
      · exact absurd h hkey.not_holdsAt
      · obtain rfl := h.unique hv
        cases path <;> exact hblocks.elim
    | missing hneeded hgap =>
      rcases hgap with ⟨-, rfl⟩ | ⟨v, rest, hv, hne, -⟩
      · rfl
      · exact absurd (hv.unique h) hne
    | refused hd hgiven =>
      rw [h.holdsAt_cons_iff] at hd
      cases path with
      | nil => exact absurd hd.symm (hgiven rfl)
      | cons key' path => exact hd.elim
  · rintro rfl
    exact .missing rfl (.inl ⟨.inr h, rfl⟩)

/-- A rule for a section is one for what stands there. -/
theorem isBroken_of_holdsAt (h : node.HoldsAt [key] v) (hv : needed = true → v ≠ null) :
    (Rule.mk (key :: path) needed Refuses).IsBroken start node e ↔
      (Rule.mk path needed Refuses).IsBroken (start ++ [key]) v e := by
  have hname (rest : List String) :
      fieldName (start ++ key :: rest) = fieldName (start ++ [key] ++ rest) := by
    rw [List.append_assoc, List.singleton_append]
  constructor
  · intro hbroken
    cases hbroken with
    | blocked hblocks =>
      rcases blocks_cons_iff.mp hblocks with hkey | ⟨v', hv', hblocks⟩
      · exact absurd h hkey.not_holdsAt
      · obtain rfl := h.unique hv'
        exact .blocked hblocks
    | missing hneeded hgap =>
      have hneeded : needed = true := hneeded
      rcases hgap with ⟨hnone | hnull, -⟩ | ⟨v', rest, hv', -, hgap, rfl⟩
      · exact absurd h hnone.not_holdsAt
      · exact absurd (h.unique hnull) (hv hneeded)
      · obtain rfl := h.unique hv'
        rw [hname]
        exact .missing hneeded hgap
    | refused hd hgiven hrefuses =>
      have hrefuses := hname path ▸ hrefuses
      exact .refused (h.holdsAt_cons_iff.mp hd) hgiven hrefuses
  · intro hbroken
    cases hbroken with
    | blocked hblocks => exact .blocked (blocks_cons_iff.mpr (.inr ⟨v, h, hblocks⟩))
    | missing hneeded hgap =>
      have hneeded : needed = true := hneeded
      rw [← hname]
      exact .missing hneeded (.inr ⟨v, _, h, hv hneeded, hgap, rfl⟩)
    | refused hd hgiven hrefuses =>
      have hrefuses := (hname path).symm ▸ hrefuses
      exact .refused (h.holdsAt_cons_iff.mpr hd) hgiven hrefuses

end Rule

/-! ### The first rule that is broken -/

variable {rule : Rule} {rules rules' : List Rule}

theorem not_firstBroken_nil : ¬ FirstBroken start node [] e := by
  rintro ⟨before, rule, after, h, -⟩
  simp at h

theorem firstBroken_cons_iff : FirstBroken start node (rule :: rules) e ↔
    rule.IsBroken start node e ∨
      (∀ e', ¬ rule.IsBroken start node e') ∧ FirstBroken start node rules e := by
  constructor
  · rintro ⟨before, r, after, h, hbefore, hbroken⟩
    cases before with
    | nil =>
      obtain ⟨rfl, rfl⟩ := List.cons.inj h
      exact .inl hbroken
    | cons r' before =>
      obtain ⟨rfl, rfl⟩ := List.cons.inj h
      rw [List.forall_mem_cons] at hbefore
      exact .inr ⟨hbefore.1, before, r, after, rfl, hbefore.2, hbroken⟩
  · rintro (hbroken | ⟨hrule, before, r, after, rfl, hbefore, hbroken⟩)
    · exact ⟨[], rule, rules, rfl, nofun, hbroken⟩
    · exact ⟨rule :: before, r, after, rfl, List.forall_mem_cons.mpr ⟨hrule, hbefore⟩, hbroken⟩

theorem firstBroken_singleton_iff :
    FirstBroken start node [rule] e ↔ rule.IsBroken start node e := by
  simp [firstBroken_cons_iff, not_firstBroken_nil]

/-! ### Readers that fail -/

/-- A reader fails, and with what: with just the errors of which `P` holds. -/
def Fails (x : Except SettingsError α) (P : SettingsError → Prop) : Prop :=
  ∀ e, x = .error e ↔ P e

theorem Fails.not_of_ok {x : Except SettingsError α} {P : SettingsError → Prop} {a : α}
    (hx : Fails x P) (h : x = .ok a) : ∀ e, ¬ P e := by
  intro e he
  rw [(hx e).mpr he] at h
  cases h

theorem fails_ok (a : α) : Fails (.ok a : Except SettingsError α) (FirstBroken start node []) :=
  fun _ => ⟨nofun, fun h => absurd h not_firstBroken_nil⟩

/-- One reader goes on after another, from rules to further rules. -/
theorem Fails.bind {x : Except SettingsError α} {f : α → Except SettingsError β}
    (hx : Fails x (FirstBroken start node rules))
    (hf : ∀ a, x = .ok a → Fails (f a) (FirstBroken start node rules')) :
    Fails (x >>= f) (FirstBroken start node (rules ++ rules')) := by
  have hsplit (e : SettingsError) : FirstBroken start node (rules ++ rules') e ↔
      FirstBroken start node rules e ∨
        (∀ e', ¬ FirstBroken start node rules e') ∧ FirstBroken start node rules' e := by
    clear hx
    induction rules with
    | nil => simp [not_firstBroken_nil]
    | cons rule rules ih =>
      simp only [List.cons_append, firstBroken_cons_iff, ih]
      grind
  intro e
  rw [hsplit]
  cases x with
  | error e' =>
    have hfirst : FirstBroken start node rules e' := (hx e').mp rfl
    have herror := hx e
    rw [show (Except.error e' >>= f) = .error e' from rfl]
    grind
  | ok a =>
    have hnone := hx.not_of_ok rfl
    rw [show (Except.ok a >>= f) = f a from rfl, hf a rfl e]
    grind

theorem Fails.bind_cons {x : Except SettingsError α} {f : α → Except SettingsError β}
    (hx : Fails x (FirstBroken start node [rule]))
    (hf : ∀ a, x = .ok a → Fails (f a) (FirstBroken start node rules)) :
    Fails (x >>= f) (FirstBroken start node (rule :: rules)) :=
  hx.bind hf

/-- A rule for what stands under a key is one for the section. -/
theorem Fails.of_section {x : Except SettingsError α}
    (hx : Fails x (FirstBroken (start ++ [key]) v [⟨path, needed, Refuses⟩]))
    (hv : node.HoldsAt [key] v) (hne : v ≠ null) :
    Fails x (FirstBroken start node [⟨key :: path, needed, Refuses⟩]) := by
  intro e
  rw [hx e, firstBroken_singleton_iff, firstBroken_singleton_iff,
    Rule.isBroken_of_holdsAt hv fun _ => hne]

/-! ### Fields that may be left out -/

/-- A section that is left out is as it should be. -/
theorem fails_field?_bind {g : Option Document → Except SettingsError α}
    (hnone : ∀ e, g none ≠ .error e)
    (hsome : ∀ d, node.HoldsAt [key] d →
      Fails (g (some d)) (FirstBroken (start ++ [key]) d [.may path Refuses])) :
    Fails (Settings.field? key node >>= g)
      (FirstBroken start node [.may (key :: path) Refuses]) := by
  intro e
  rw [firstBroken_singleton_iff]
  rcases field?_cases node key with h | h | ⟨v, h⟩
  · rw [Rule.may, Rule.isBroken_of_blocks h, Settings.field?, field?_eq_error_iff.mpr ⟨h, rfl⟩]
    simp [Except.mapError, bind, Except.bind, eq_comm]
  · rw [Rule.may, Rule.isBroken_of_leavesOut h, Settings.field?, field?_eq_ok_none_iff.mpr h]
    simpa [Except.mapError, bind, Except.bind] using hnone e
  · have hgiven : false = true → v ≠ null := fun hfalse => absurd hfalse Bool.false_ne_true
    rw [Rule.may, Rule.isBroken_of_holdsAt h hgiven, Settings.field?, field?_eq_ok_some_iff.mpr h]
    exact (hsome v h e).trans firstBroken_singleton_iff

/-- A field that may be left out is read by a reader that fails with what its rule refuses. -/
theorem fails_field?_bind_of_refuses {g : Option Document → Except SettingsError α}
    (hfield : field = fieldName (start ++ [key])) (hnone : ∀ e, g none ≠ .error e)
    (hsome : ∀ d, Fails (g (some d)) (Refuses field d)) :
    Fails (Settings.field? key node >>= g) (FirstBroken start node [.may [key] Refuses]) := by
  refine fails_field?_bind hnone fun d _ e => ?_
  rw [firstBroken_singleton_iff, Rule.may, Rule.isBroken_nil_iff, ← hfield]
  exact (hsome d e).trans (and_iff_right nofun).symm

/-- A field of a section, where both may be left out. -/
theorem fails_section {key' : String} {default : α} {f : Document → Except SettingsError α}
    (hfield : field = fieldName (start ++ [key] ++ [key']))
    (hf : ∀ d, Fails (f d) (Refuses field d)) :
    Fails (do
        match ← Settings.field? key node with
        | none => return default
        | some v =>
          match ← Settings.field? key' v with
          | none => return default
          | some d => f d)
      (FirstBroken start node [.may [key, key'] Refuses]) :=
  fails_field?_bind nofun fun _ _ => fails_field?_bind_of_refuses hfield nofun hf

/-! ### Fields that have to be there -/

/-- A section that has to be there is checked before the first rule for it, which is broken if the
section is missing. -/
theorem fails_required_bind {f : Document → Except SettingsError α}
    (hfield : field = fieldName (start ++ [key]))
    (hf : ∀ v, node.HoldsAt [key] v → v ≠ null →
      Fails (f v) (FirstBroken start node (.must (key :: path) Refuses :: rules))) :
    Fails (required key field node >>= f)
      (FirstBroken start node (.must (key :: path) Refuses :: rules)) := by
  subst hfield
  -- if the section is missing or cannot be asked for, nothing else comes into it
  have hfirst {e' : SettingsError}
      (hrequired : required key (fieldName (start ++ [key])) node = .error e')
      (hbroken : ∀ e, (Rule.must (key :: path) Refuses).IsBroken start node e ↔ e = e') (e) :
      (required key (fieldName (start ++ [key])) node >>= f) = .error e ↔
        FirstBroken start node (.must (key :: path) Refuses :: rules) e := by
    rw [firstBroken_cons_iff, hbroken, hrequired]
    simp [hbroken, bind, Except.bind, eq_comm]
  rcases field?_cases node key with h | h | ⟨v, h⟩
  · refine hfirst ?_ fun e => Rule.isBroken_of_blocks h
    rw [required, Settings.field?, field?_eq_error_iff.mpr ⟨h, rfl⟩]
    rfl
  · refine hfirst ?_ fun e => (Rule.isBroken_of_leavesOut h).trans (and_iff_right rfl)
    rw [required, Settings.field?, field?_eq_ok_none_iff.mpr h]
    rfl
  · by_cases hnull : v = null
    · subst hnull
      refine hfirst ?_ fun e => Rule.isBroken_of_null h
      rw [required, Settings.field?, field?_eq_ok_some_iff.mpr h]
      rfl
    · rw [required_eq_ok_iff.mpr ⟨h, hnull⟩]
      exact hf v h hnull

/-- A field that has to be there is read by a reader that fails with what its rule refuses. -/
theorem fails_required_bind_of_refuses {f : Document → Except SettingsError α}
    (hfield : field = fieldName (start ++ [key]))
    (hf : ∀ d, Fails (f d) (Refuses field d)) :
    Fails (required key field node >>= f) (FirstBroken start node [.must [key] Refuses]) := by
  refine fails_required_bind hfield fun v hv hne e => ?_
  rw [firstBroken_singleton_iff, Rule.must, Rule.isBroken_of_holdsAt hv fun _ => hne,
    Rule.isBroken_nil_iff, ← hfield]
  exact (hf v e).trans (and_iff_right fun _ => hne).symm

end Settings

end OperatorHealth

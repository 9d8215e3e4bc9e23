import OperatorHealth.Json.Format

/-!
# Documents in JSON are read back as they were written

The reader takes a document off the front of a text and leaves what follows it. Applied to the text
of a document it gives that document: a quoted text is read character by character, whatever was
escaped in it, and a tree part by part. Every part takes up at least one character, so the length of
the text is enough fuel.

## Main results

* `Json.readQuoted?_quote`: a quoted text.
* `Json.readNode?_chars`: a tree in front of a text.
* `Json.lawfulDocumentFormat`: a document is read back from its text.
-/

namespace OperatorHealth.Json

open Document

/-! ### Quoted texts -/

theorem digitValue?_digitChar {d : Nat} (h : d < 16) :
    Integer.digitValue? (Nat.digitChar d) = some d := by
  have hall : ∀ d < 16, Integer.digitValue? (Nat.digitChar d) = some d := by decide
  exact hall d h

theorem readUnits?_cons_of_plain {c : Char} (hquote : c ≠ '"') (hslash : c ≠ '\\')
    (hcontrol : ¬ c.toNat < 32) (rest : List Char) :
    readUnits? (c :: rest) = (readUnits? rest).map fun p => (c.toNat :: p.1, p.2) := by
  rw [readUnits?.eq_def]
  split
  · next h => cases h
  · next h => exact absurd (List.cons.inj h).1 hquote
  · next h => exact absurd (List.cons.inj h).1 hslash
  · next h => exact absurd (List.cons.inj h).1 hslash
  · next h =>
    obtain ⟨rfl, rfl⟩ := List.cons.inj h
    rw [if_neg hcontrol]

/-- A character inside quotes is read as its unit. -/
theorem readUnits?_escape (c : Char) (rest : List Char) :
    readUnits? (escape c ++ rest) = (readUnits? rest).map fun p => (c.toNat :: p.1, p.2) := by
  unfold escape
  split
  · next h =>
    subst h
    cases hrest : readUnits? rest <;> simp [readUnits?, simpleEscape?, hrest]
  split
  · next h =>
    subst h
    cases hrest : readUnits? rest <;> simp [readUnits?, simpleEscape?, hrest]
  split
  · next h =>
    have hunit : hexUnit? '0' '0' (Nat.digitChar (c.toNat / 16)) (Nat.digitChar (c.toNat % 16)) =
        some c.toNat := by
      simp only [hexUnit?, digitValue?_digitChar (show c.toNat / 16 < 16 by omega),
        digitValue?_digitChar (show c.toNat % 16 < 16 by omega),
        show Integer.digitValue? '0' = some 0 from rfl, bind, Option.bind, pure]
      congr 1
      omega
    cases hrest : readUnits? rest <;> simp [readUnits?, hunit, hrest]
  · next hquote hslash hcontrol => exact readUnits?_cons_of_plain hquote hslash hcontrol rest

theorem readUnits?_flatMap_escape (cs rest : List Char) :
    readUnits? (cs.flatMap escape ++ '"' :: rest) = some (cs.map Char.toNat, rest) := by
  induction cs with
  | nil => rfl
  | cons c cs ih => rw [List.flatMap_cons, List.append_assoc, readUnits?_escape, ih]; rfl

/-- No character is a surrogate, so each stands for itself. -/
theorem unitsToChars?_map_toNat (cs : List Char) :
    unitsToChars? (cs.map Char.toNat) = some cs := by
  induction cs with
  | nil => rfl
  | cons c cs ih =>
    have hvalid : c.toNat < 0xD800 ∨ 0xDFFF < c.toNat := by
      rcases c.valid with h | h
      · exact .inl h
      · exact .inr h.1
    have hhigh : ¬ (0xD800 ≤ c.toNat ∧ c.toNat < 0xDC00) := by omega
    have hlow : ¬ (0xDC00 ≤ c.toNat ∧ c.toNat < 0xE000) := by omega
    rw [List.map_cons, unitsToChars?.eq_def]
    simp only [hhigh, hlow, if_false, ih, Option.map_some, Char.ofNat_toNat]

/-- A quoted text is read back, and what follows it is left. -/
theorem readQuoted?_quote (s : String) (rest : List Char) :
    readQuoted? (s.toList.flatMap escape ++ '"' :: rest) = some (s, rest) := by
  simp [readQuoted?, readUnits?_flatMap_escape, unitsToChars?_map_toNat]

/-! ### Trees -/

/-- No word goes on in a text. -/
def EndsWord (rest : List Char) : Prop := ∀ c cs, rest = c :: cs → isWordChar c = false

theorem takeWhile_isWordChar {rest : List Char} (h : EndsWord rest) :
    rest.takeWhile isWordChar = [] ∧ rest.dropWhile isWordChar = rest := by
  cases rest with
  | nil => exact ⟨rfl, rfl⟩
  | cons c cs => simp [h c cs rfl]

theorem endsWord_itemChars (ds : List Document) (rest : List Char) :
    EndsWord (itemChars ds ++ rest) := by
  intro c cs h
  cases ds <;> simp only [itemChars, List.cons_append, List.cons.injEq] at h <;> rw [← h.1] <;> rfl

theorem endsWord_entryChars (es : List (Document × Document)) (rest : List Char) :
    EndsWord (entryChars es ++ rest) := by
  intro c cs h
  cases es <;> simp only [entryChars, List.cons_append, List.cons.injEq] at h <;> rw [← h.1] <;> rfl

/-- The first character of a document is no blank and closes nothing. -/
theorem exists_chars_eq_cons (d : Document) : ∃ c cs, chars d = c :: cs ∧
    isSeparatorBlank c = false ∧ c ≠ ']' ∧ c ≠ '}' := by
  cases d with
  | null => exact ⟨_, _, rfl, by decide⟩
  | scalar s => exact ⟨_, _, rfl, by decide⟩
  | sequence ds => cases ds <;> exact ⟨_, _, rfl, by decide⟩
  | mapping es => cases es <;> exact ⟨_, _, rfl, by decide⟩

theorem skipBlanks_chars (d : Document) (rest : List Char) :
    skipBlanks (chars d ++ rest) = chars d ++ rest := by
  obtain ⟨c, cs, hd, hc, -⟩ := exists_chars_eq_cons d
  simp [hd, skipBlanks, hc]

theorem length_chars_pos (d : Document) : 0 < (chars d).length := by
  obtain ⟨c, cs, hd, -⟩ := exists_chars_eq_cons d
  rw [hd]
  exact Nat.succ_pos _

theorem exists_scalar_of_entriesHaveTextKeys {k d : Document} {es : List (Document × Document)}
    (h : entriesHaveTextKeys ((k, d) :: es) = true) : ∃ text, k = scalar text := by
  rw [entriesHaveTextKeys, Bool.and_eq_true] at h
  cases k with
  | scalar text => exact ⟨text, rfl⟩
  | null => cases h.1
  | sequence items => cases h.1
  | mapping es => cases h.1

/-! A bracket or a brace is read together with the first part after it, which closes nothing. -/

theorem readNode?_sequence_cons (d : Document) (fuel : Nat) (rest : List Char) :
    readNode? (fuel + 1) ('[' :: (chars d ++ rest)) =
      (readItems? fuel (chars d ++ rest)).map fun p => (.sequence p.1, p.2) := by
  obtain ⟨c, cs, hd, hc, hclose, -⟩ := exists_chars_eq_cons d
  have hopen : skipBlanks ('[' :: (chars d ++ rest)) = '[' :: (chars d ++ rest) := rfl
  have hskip := skipBlanks_chars d rest
  rw [hd, List.cons_append] at hopen hskip ⊢
  rw [readNode?, hopen]
  simp only [hskip]
  split
  · next h => exact absurd (List.cons.inj h).1 hclose
  · rfl

theorem keyChars_scalar (k : String) (rest : List Char) :
    keyChars (scalar k) ++ rest = quote k ++ ':' :: rest := by
  simp [keyChars, key?]

theorem readNode?_mapping_cons (k : String) (fuel : Nat) (rest : List Char) :
    readNode? (fuel + 1) ('{' :: (keyChars (scalar k) ++ rest)) =
      (readEntries? fuel (keyChars (scalar k) ++ rest)).map fun p => (.mapping p.1, p.2) := rfl

/-- The key of an entry is read, and then its document. -/
theorem readEntries?_keyChars (k : String) (fuel : Nat) (rest : List Char) :
    readEntries? (fuel + 1) (keyChars (scalar k) ++ rest) =
      match readNode? fuel rest with
      | none => none
      | some (d, rest) =>
        match skipBlanks rest with
        | '}' :: rest => some ([(scalar k, d)], rest)
        | ',' :: rest => (readEntries? fuel rest).map fun p => ((scalar k, d) :: p.1, p.2)
        | _ => none := by
  have hskip : skipBlanks (keyChars (scalar k) ++ rest) =
      '"' :: (k.toList.flatMap escape ++ '"' :: ':' :: rest) := by
    rw [keyChars_scalar, quote, List.cons_append, List.append_assoc]
    rfl
  rw [readEntries?, hskip]
  simp only [readQuoted?_quote]
  rfl

mutual

/-- A document in front of a text is read back, and the text after it is left. -/
theorem readNode?_chars : ∀ (d : Document) (fuel : Nat) (rest : List Char),
    d.hasTextKeys = true → (chars d).length ≤ fuel → EndsWord rest →
      readNode? fuel (chars d ++ rest) = some (d, rest)
  | d, 0, rest, _, hfuel, _ => by
    have hpos := length_chars_pos d
    omega
  | .null, fuel + 1, rest, _, _, hrest => by
    obtain ⟨htake, hdrop⟩ := takeWhile_isWordChar hrest
    simp [readNode?, chars, skipBlanks, isSeparatorBlank, isWordChar, htake, hdrop, ofWord?]
  | .scalar s, fuel + 1, rest, _, _, _ => by
    simp [readNode?, chars, quote, skipBlanks, isSeparatorBlank, readQuoted?_quote]
  | .sequence [], fuel + 1, rest, _, _, _ => rfl
  | .sequence (d :: ds), fuel + 1, rest, hkeys, hfuel, _ => by
    have hitems := readItems?_itemChars d ds fuel rest hkeys (by simpa [chars] using hfuel)
    rw [chars, List.cons_append, List.append_assoc, readNode?_sequence_cons, hitems]
    rfl
  | .mapping [], fuel + 1, rest, _, _, _ => rfl
  | .mapping ((k, d) :: es), fuel + 1, rest, hkeys, hfuel, _ => by
    obtain ⟨k, rfl⟩ := exists_scalar_of_entriesHaveTextKeys hkeys
    have hentries := readEntries?_entryChars k d es fuel rest hkeys
      (by simpa [chars] using hfuel)
    rw [chars, List.cons_append, List.append_assoc, readNode?_mapping_cons, List.append_assoc,
      hentries]
    rfl

/-- The items of a sequence are read back. -/
theorem readItems?_itemChars : ∀ (d : Document) (ds : List Document) (fuel : Nat)
    (rest : List Char), itemsHaveTextKeys (d :: ds) = true →
      (chars d).length + (itemChars ds).length ≤ fuel →
      readItems? fuel (chars d ++ (itemChars ds ++ rest)) = some (d :: ds, rest)
  | d, ds, 0, rest, _, hfuel => by
    have hpos := length_chars_pos d
    omega
  | d, [], fuel + 1, rest, hkeys, hfuel => by
    rw [itemsHaveTextKeys, Bool.and_eq_true] at hkeys
    have hnode := readNode?_chars d fuel (itemChars [] ++ rest) hkeys.1
      (by simp only [itemChars, List.length_singleton] at hfuel; omega) (endsWord_itemChars [] rest)
    rw [readItems?, hnode]
    rfl
  | d, d' :: ds, fuel + 1, rest, hkeys, hfuel => by
    rw [itemsHaveTextKeys, Bool.and_eq_true] at hkeys
    have hpos := length_chars_pos d
    simp only [itemChars, List.length_cons, List.length_append] at hfuel
    have hnode := readNode?_chars d fuel (itemChars (d' :: ds) ++ rest) hkeys.1 (by omega)
      (endsWord_itemChars _ rest)
    have hitems := readItems?_itemChars d' ds fuel rest hkeys.2 (by omega)
    have hskip : skipBlanks (itemChars (d' :: ds) ++ rest) =
        ',' :: (chars d' ++ (itemChars ds ++ rest)) := by
      rw [itemChars, List.cons_append, List.append_assoc]
      rfl
    rw [readItems?, hnode]
    simp only [hskip, hitems, Option.map_some]

/-- The entries of a mapping are read back. -/
theorem readEntries?_entryChars : ∀ (k : String) (d : Document)
    (es : List (Document × Document)) (fuel : Nat) (rest : List Char),
      entriesHaveTextKeys ((scalar k, d) :: es) = true →
      (keyChars (scalar k)).length + ((chars d).length + (entryChars es).length) ≤ fuel →
        readEntries? fuel (keyChars (scalar k) ++ (chars d ++ (entryChars es ++ rest))) =
          some ((scalar k, d) :: es, rest)
  | k, d, es, 0, rest, _, hfuel => by
    have hpos := length_chars_pos d
    omega
  | k, d, [], fuel + 1, rest, hkeys, hfuel => by
    simp only [entriesHaveTextKeys, Bool.and_eq_true] at hkeys
    simp only [entryChars, List.length_singleton] at hfuel
    have hnode := readNode?_chars d fuel (entryChars [] ++ rest) hkeys.2.1 (by omega)
      (endsWord_entryChars [] rest)
    rw [readEntries?_keyChars, hnode]
    rfl
  | k, d, (k', d') :: es, fuel + 1, rest, hkeys, hfuel => by
    rw [entriesHaveTextKeys, Bool.and_eq_true, Bool.and_eq_true] at hkeys
    obtain ⟨k', rfl⟩ := exists_scalar_of_entriesHaveTextKeys hkeys.2.2
    have hpos := length_chars_pos d
    simp only [entryChars, List.length_cons, List.length_append] at hfuel
    have hnode := readNode?_chars d fuel (entryChars ((scalar k', d') :: es) ++ rest) hkeys.2.1
      (by omega) (endsWord_entryChars _ rest)
    have hentries := readEntries?_entryChars k' d' es fuel rest hkeys.2.2 (by omega)
    have hskip : skipBlanks (entryChars ((scalar k', d') :: es) ++ rest) =
        ',' :: (keyChars (scalar k') ++ (chars d' ++ (entryChars es ++ rest))) := by
      rw [entryChars]
      simp only [List.cons_append, List.append_assoc]
      rfl
    rw [readEntries?_keyChars, hnode]
    simp only [hskip, hentries, Option.map_some]

end

/-- **A document is read back from its text**, also if blanks follow it. -/
theorem read?_write_append {d : Document} (hkeys : d.hasTextKeys = true) {blanks : String}
    (hblanks : skipBlanks blanks.toList = []) : read? (write d ++ blanks) = some d := by
  have hskip := skipBlanks_chars d blanks.toList
  have hpos := length_chars_pos d
  have hne : chars d ++ blanks.toList ≠ [] := fun h => by
    rw [(List.append_eq_nil_iff.mp h).1] at hpos
    cases hpos
  -- no blank goes on with a word
  have hends : EndsWord blanks.toList := by
    intro c cs h
    cases hc : isSeparatorBlank c with
    | false => simp [h, skipBlanks, hc] at hblanks
    | true =>
      simp only [isSeparatorBlank, Bool.or_eq_true, beq_iff_eq] at hc
      rcases hc with ((rfl | rfl) | rfl) | rfl <;> rfl
  have hnode := readNode?_chars d (2 * (chars d ++ blanks.toList).length + 2) blanks.toList hkeys
    (by rw [List.length_append]; omega) hends
  simp only [read?, write, String.toList_append, String.toList_ofList, hskip, hne, if_false, hnode,
    hblanks, if_true]

theorem read?_write {d : Document} (hkeys : d.hasTextKeys = true) : read? (write d) = some d := by
  have h : read? (write d ++ "") = some d := read?_write_append hkeys rfl
  rwa [String.append_empty] at h

instance lawfulDocumentFormat : LawfulDocumentFormat where
  isSome_write? d hkeys := by simp [DocumentFormat.write?, hkeys]
  read?_of_write? {d text} h := by
    simp only [DocumentFormat.write?, Option.ite_none_right_eq_some] at h
    obtain ⟨hkeys, htext⟩ := h
    rw [← Option.some.inj htext]
    exact read?_write_append hkeys rfl
  read?_empty := rfl

end OperatorHealth.Json

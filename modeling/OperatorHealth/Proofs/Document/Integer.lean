import Mathlib.Data.List.TakeWhile
import OperatorHealth.Document.Basic

/-!
# Decimal numbers are read back

The decimal text of an integer spells out that integer: it has no leading zero that would make it
octal, and a sign only if it is negative. So a 64-bit or a 32-bit number is read back from its
decimal text as it is.

## Main results

* `Integer.read?_toString`: the decimal text of an integer.
* `Document.int64_decimal`, `Document.int32_decimal`: numbers in a document.
-/

namespace OperatorHealth

namespace Integer

/-! ### Digits -/

theorem digitValue?_of_isDigit {c : Char} (h : c.isDigit) :
    digitValue? c = some (c.toNat - '0'.toNat) := by
  rw [digitValue?, if_pos h]

theorem isDigitOf_ten {c : Char} (h : c.isDigit) : isDigitOf 10 c = true := by
  have hrange : 48 ≤ c.toNat ∧ c.toNat ≤ 57 := by
    simpa [Char.isDigit, UInt32.le_iff_toNat_le] using h
  have hzero : '0'.toNat = 48 := rfl
  simp only [isDigitOf, digitValue?_of_isDigit h, Option.any_some, decide_eq_true_eq]
  omega

theorem value_of_isDigit {ds : List Char} (h : ∀ c ∈ ds, c.isDigit) :
    value 10 ds = Nat.ofDigitChars 10 ds 0 := by
  suffices ∀ n, ds.foldl (fun n c => 10 * n + (digitValue? c).getD 0) n =
      ds.foldl (fun n c => 10 * n + (c.toNat - '0'.toNat)) n by
    rw [value, Nat.ofDigitChars_eq_foldl, this]
  induction ds with
  | nil => exact fun _ => rfl
  | cons c ds ih =>
    rw [List.forall_mem_cons] at h
    intro n
    rw [List.foldl_cons, List.foldl_cons, digitValue?_of_isDigit h.1, Option.getD_some, ih h.2]

/-! ### Decimal numbers -/

theorem isDigit_of_mem_toDigits {n : Nat} {c : Char} (h : c ∈ Nat.toDigits 10 n) : c.isDigit :=
  Nat.isDigit_of_mem_toDigits (by decide) (by decide) h

/-- Only the number zero starts with a zero. -/
theorem toDigits_ne_zero_cons {n : Nat} (hn : 0 < n) (ds : List Char) :
    Nat.toDigits 10 n ≠ '0' :: ds := by
  induction n using Nat.strongRecOn generalizing ds with
  | ind n ih =>
    rw [Nat.toDigits_eq_if (by decide)]
    split
    · intro h
      have hdigit : n.digitChar = '0' := (List.cons.inj h).1
      have hnat := congrArg Char.toNat hdigit
      rw [Nat.toNat_digitChar_of_lt_ten (by omega)] at hnat
      have hzero : '0'.toNat = 48 := rfl
      omega
    · intro h
      obtain ⟨ds', hds'⟩ : ∃ ds', Nat.toDigits 10 (n / 10) = '0' :: ds' := by
        cases hdigits : Nat.toDigits 10 (n / 10) with
        | nil => exact absurd hdigits Nat.toDigits_ne_nil
        | cons c cs =>
          rw [hdigits] at h
          exact ⟨cs, by rw [(List.cons.inj h).1]⟩
      exact ih (n / 10) (by omega) (by omega) ds' hds'

theorem readDigits?_toDigits (n : Nat) : readDigits? 10 (Nat.toDigits 10 n) = some n := by
  have hdigits : ∀ c ∈ Nat.toDigits 10 n, c.isDigit := fun _ => isDigit_of_mem_toDigits
  have htake : (Nat.toDigits 10 n).takeWhile (isDigitOf 10) = Nat.toDigits 10 n :=
    List.takeWhile_eq_self_iff.mpr fun c hc => isDigitOf_ten (hdigits c hc)
  have hvalue : value 10 (Nat.toDigits 10 n) = n := by
    rw [value_of_isDigit hdigits, Nat.ofDigitChars_ten_toDigits]
  simp only [readDigits?, htake, hvalue, List.drop_length, List.all_nil, and_true, ne_eq,
    Nat.toDigits_ne_nil, not_false_eq_true, if_true]

/-- A decimal number is not taken for an octal or a hexadecimal one. -/
theorem readNatural?_toDigits (n : Nat) : readNatural? (Nat.toDigits 10 n) = some n := by
  rcases Nat.eq_zero_or_pos n with rfl | hn
  · decide
  · have hread := readDigits?_toDigits n
    unfold readNatural?
    split
    · exact absurd ‹_› (toDigits_ne_zero_cons hn _)
    · exact absurd ‹_› (toDigits_ne_zero_cons hn _)
    · exact absurd ‹_› (toDigits_ne_zero_cons hn _)
    · exact hread

theorem read?_toDigits (n : Nat) : read? (Nat.toDigits 10 n) = some (n : Int) := by
  have hsign : ∀ c cs, Nat.toDigits 10 n = c :: cs → c ≠ '-' ∧ c ≠ '+' := by
    intro c cs h
    have hdigit : c.isDigit := isDigit_of_mem_toDigits (h ▸ List.mem_cons_self)
    constructor <;> rintro rfl <;> exact absurd hdigit (by decide)
  unfold read?
  split
  · exact absurd rfl (hsign _ _ ‹_›).1
  · exact absurd rfl (hsign _ _ ‹_›).2
  · rw [readNatural?_toDigits]
    rfl

/-- **The decimal text of an integer spells out that integer.** -/
theorem read?_toString (n : Int) : read? (toString n).toList = some n := by
  cases n with
  | ofNat n =>
    have htext : (toString (Int.ofNat n)).toList = Nat.toDigits 10 n := by
      rw [show toString (Int.ofNat n) = n.repr from rfl, Nat.repr_eq_ofList_toDigits,
        String.toList_ofList]
    rw [htext, read?_toDigits]
    rfl
  | negSucc n =>
    have htext : (toString (Int.negSucc n)).toList = '-' :: Nat.toDigits 10 (n + 1) := by
      rw [show toString (Int.negSucc n) = "-" ++ (n + 1).repr from rfl,
        Nat.repr_eq_ofList_toDigits]
      simp
    rw [htext, read?, readNatural?_toDigits]
    rfl

end Integer

/-! ### Numbers in a document -/

namespace Document

theorem integer_decimal (n : Int) : (scalar (toString n)).integer = .ok n := by
  simp only [integer, Integer.read?_toString]

theorem int64_decimal (n : Int64) : (scalar (toString n.toInt)).int64 = .ok n := by
  have hrange : Int64.minValue.toInt ≤ n.toInt ∧ n.toInt ≤ Int64.maxValue.toInt :=
    ⟨Int64.le_toInt n, Int64.toInt_le n⟩
  simp only [int64, integer_decimal, bind, Except.bind, hrange, and_self, if_true,
    Int64.ofInt_toInt]

theorem int32_decimal (n : Int32) : (scalar (toString n.toInt)).int32 = .ok n := by
  have hrange : Int32.minValue.toInt ≤ n.toInt ∧ n.toInt ≤ Int32.maxValue.toInt :=
    ⟨Int32.le_toInt n, Int32.toInt_le n⟩
  simp only [int32, integer_decimal, bind, Except.bind, hrange, and_self, if_true,
    Int32.ofInt_toInt]

end Document

end OperatorHealth

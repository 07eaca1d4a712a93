import Mathlib.Data.List.TakeWhile
import Cetty.HeaderTable
import Cetty.HttpMessage

/-!
# Decimal numbers in messages

A number that is written with its digits is read back.
-/

namespace Cetty

open CLocale MachineInt

/-- The characters of a decimal number. -/
theorem decimal_digits (n : Nat) :
    ∃ digits : List Char, DefaultHttpHeader.decimal n =
        digits.map (fun c => BitVec.ofNat 8 c.toNat) ∧ digits ≠ [] ∧
      (∀ c ∈ digits, 48 ≤ c.toNat ∧ c.toNat ≤ 57) ∧ Nat.ofDigitChars 10 digits 0 = n := by
  refine ⟨Nat.toDigits 10 n, ?_, Nat.toDigits_ne_nil, ?_, Nat.ofDigitChars_ten_toDigits⟩
  · unfold DefaultHttpHeader.decimal text
    congr 1
    exact Nat.toList_repr
  · intro c among
    have digit := Nat.isDigit_of_mem_toDigits (by decide) (by decide) among
    unfold Char.isDigit at digit
    simp only [ge_iff_le, Bool.and_eq_true, decide_eq_true_eq] at digit
    exact ⟨digit.1, digit.2⟩

theorem byte_of_digit {c : Char} (least : 48 ≤ c.toNat) (most : c.toNat ≤ 57) :
    (BitVec.ofNat 8 c.toNat).toNat = c.toNat := by
  rw [BitVec.toNat_ofNat]
  exact Nat.mod_eq_of_lt (by omega)

theorem isdigit_of_digit {c : Char} (least : 48 ≤ c.toNat) (most : c.toNat ≤ 57) :
    isdigit (BitVec.ofNat 8 c.toNat) = true := by
  unfold isdigit
  rw [byte_of_digit least most]
  simp [least, most]

theorem solid_of_isdigit {c : BitVec 8} (digit : isdigit c = true) :
    isspace c = false ∧ c ≠ 45 ∧ c ≠ 43 ∧ c ≠ 0 := by
  revert c
  decide

/-- Reading the digits of a number gives the number. -/
theorem digits_read (digits : List Char) (start : Nat)
    (proper : ∀ c ∈ digits, 48 ≤ c.toNat ∧ c.toNat ≤ 57) :
    (digits.map fun c => BitVec.ofNat 8 c.toNat).foldl
      (fun value (c : BitVec 8) => value * 10 + (c.toNat - 48)) start =
        Nat.ofDigitChars 10 digits start := by
  induction digits generalizing start with
  | nil => rfl
  | cons c rest ih =>
      obtain ⟨least, most⟩ := proper c List.mem_cons_self
      rw [List.map_cons, List.foldl_cons, ih _ fun other among =>
        proper other (List.mem_cons_of_mem _ among), byte_of_digit least most,
        Nat.ofDigitChars_cons, Nat.mul_comm]
      rfl

namespace Integer

theorem decimal_isdigit {n : Nat} :
    ∀ c ∈ DefaultHttpHeader.decimal n, isdigit c = true := by
  obtain ⟨digits, same, -, proper, -⟩ := decimal_digits n
  rw [same]
  intro c among
  obtain ⟨d, there, rfl⟩ := List.mem_map.mp among
  exact isdigit_of_digit (proper d there).1 (proper d there).2

theorem parse_decimal {n : Nat} (small : n ≤ 2147483647) :
    parse (DefaultHttpHeader.decimal n) = n := by
  have every := @decimal_isdigit n
  obtain ⟨chars, same, some_, proper, value⟩ := decimal_digits n
  have front : (DefaultHttpHeader.decimal n).dropWhile isspace = DefaultHttpHeader.decimal n := by
    apply dropWhile_none
    intro c first
    exact (solid_of_isdigit (every c (List.mem_of_mem_head? first))).1
  have unsigned : signed (DefaultHttpHeader.decimal n) = (false, DefaultHttpHeader.decimal n) := by
    cases begins : DefaultHttpHeader.decimal n with
    | nil =>
        rw [same, List.map_eq_nil_iff] at begins
        exact absurd begins some_
    | cons c rest =>
        have digit := every c (by rw [begins]; exact List.mem_cons_self)
        obtain ⟨-, minus, plus, -⟩ := solid_of_isdigit digit
        unfold signed
        dsimp only
        rw [if_neg minus, if_neg plus]
  have all : (DefaultHttpHeader.decimal n).takeWhile isdigit = DefaultHttpHeader.decimal n :=
    List.takeWhile_eq_self_iff.mpr every
  have read : CLocale.digits (DefaultHttpHeader.decimal n) = n := by
    unfold CLocale.digits
    rw [same, digits_read chars 0 proper, value]
  unfold parse strtol
  rw [front, unsigned]
  dsimp only
  rw [all, read, if_neg Bool.false_ne_true, Nat.min_eq_left (by omega)]
  exact int32_of_nonneg (by omega) (by unfold maxInt; omega)

end Integer

end Cetty

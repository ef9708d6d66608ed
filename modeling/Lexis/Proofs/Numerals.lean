import Lexis.Numeral

/-!
# Numerals against a limit

A run of digits is compared with a limit by its count of digits first. `Limit.read_eq_of_digits` says
that this is the comparison of the values all the same, for digit runs of any length: leading zeros
do not change a value, and a longer run that starts with another digit is greater.
-/

namespace Lexis

namespace Decimal

/-! ### Leading zeros -/

theorem value_cons_zero (digits : List Char) : value ('0' :: digits) = value digits := rfl

theorem value_dropWhile_zero (digits : List Char) :
    value (digits.dropWhile (· = '0')) = value digits := by
  induction digits with
  | nil => rfl
  | cons d ds ih =>
    by_cases zero : d = '0'
    · subst zero
      rw [List.dropWhile_cons_of_pos (by decide), ih, value_cons_zero]
    · rw [List.dropWhile_cons_of_neg (by simpa using zero)]

theorem value_significant (digits : List Char) : value (significant digits) = value digits := by
  rw [← value_dropWhile_zero digits]
  unfold significant
  split
  · next none => rw [none]; rfl
  · rfl

/-! ### Length and value -/

theorem pow_le_value {d : Char} {ds : List Char} (digit : d.isDigit = true) (nonzero : d ≠ '0') :
    Nat.pow 10 ds.length ≤ value (d :: ds) := by
  have low : 48 ≤ d.toNat := (Char.isDigit_iff_toNat.1 digit).1
  have positive : 1 ≤ d.toNat - '0'.toNat := by
    have : d.toNat ≠ 48 := fun h => nonzero (Char.toNat_inj.1 h)
    show 1 ≤ d.toNat - 48
    omega
  unfold value
  rw [Nat.ofDigitChars_cons, Nat.ofDigitChars_eq_ofDigitChars_zero]
  calc Nat.pow 10 ds.length = Nat.pow 10 ds.length * 1 := (Nat.mul_one _).symm
    _ ≤ Nat.pow 10 ds.length * (10 * 0 + (d.toNat - '0'.toNat)) :=
      Nat.mul_le_mul_left _ (by omega)
    _ ≤ _ := Nat.le_add_right _ _

theorem significant_cases {digits : List Char} (all : digits.all Char.isDigit = true) :
    significant digits = ['0'] ∨
      ∃ d ds, significant digits = d :: ds ∧ d.isDigit = true ∧ d ≠ '0' := by
  unfold significant
  cases rest : digits.dropWhile (· = '0') with
  | nil => exact .inl rfl
  | cons d ds =>
    refine .inr ⟨d, ds, rfl, ?_, ?_⟩
    · have member : d ∈ digits := (List.dropWhile_subset _) (rest ▸ List.mem_cons_self)
      exact List.all_eq_true.1 all d member
    · have := List.head?_dropWhile_not (· = '0') digits
      rw [rest] at this
      simpa using this

end Decimal

namespace Limit

theorem length_digits_pos (limit : Limit) : 0 < limit.digits.length := by
  rw [limit.digits_eq]
  exact Nat.length_toDigits_pos

theorem value_lt_pow (limit : Limit) : limit.value < Nat.pow 10 limit.digits.length :=
  (Nat.length_toDigits_le_iff (by decide) limit.length_digits_pos).1
    (Nat.le_of_eq (congrArg List.length limit.digits_eq.symm))

theorem value_lt_of_length_lt (limit : Limit) {digits : List Char}
    (all : digits.all Char.isDigit = true)
    (long : limit.digits.length < (Decimal.significant digits).length) :
    limit.value < Decimal.value digits := by
  rw [← Decimal.value_significant]
  rcases Decimal.significant_cases all with zero | ⟨d, ds, shape, digit, nonzero⟩
  · have positive := limit.length_digits_pos
    rw [zero, List.length_singleton] at long
    omega
  · rw [shape, List.length_cons] at long
    rw [shape]
    calc limit.value < Nat.pow 10 limit.digits.length := limit.value_lt_pow
      _ ≤ Nat.pow 10 ds.length := Nat.pow_le_pow_right (by decide) (Nat.le_of_lt_succ long)
      _ ≤ Decimal.value (d :: ds) := Decimal.pow_le_value digit nonzero

/-- **Reading up to a limit compares values.** -/
theorem read_eq_of_digits (limit : Limit) {digits : List Char}
    (all : digits.all Char.isDigit = true) :
    limit.read digits =
      .ok (if Decimal.value digits ≤ limit.value then some (Decimal.value digits) else none) := by
  rw [read_eq, Decimal.value_significant]
  by_cases long : limit.digits.length < (Decimal.significant digits).length
  · have greater := limit.value_lt_of_length_lt all long
    rw [if_pos long, if_neg (by omega)]
  · rw [if_neg long]

end Limit

end Lexis

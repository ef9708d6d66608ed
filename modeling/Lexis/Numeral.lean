import Lexis.Decimal

/-!
Integer numerals of a given width. The limit of a width is the greatest number of that many bits;
`Limit.ofBits` refuses widths whose limit has too many digits to be written. A numeral is compared
with the limit by its count of digits first, so an overlong one is never read.
-/

namespace Lexis

/-- The greatest integer of a width, with its decimal digits. -/
structure Limit where
  value : Nat
  digits : List Char
  digits_eq : digits = Nat.toDigits 10 value
  short : digits.length ≤ Decimal.maxDigits

namespace Limit

/-! ### The limit of a width -/

/-- The widest width whose limit can still be written. -/
def maxBits : Nat := 14284

/-- The greatest integer of that many bits. -/
def greatest (bits : Nat) : Nat := Nat.pow 2 bits - 1

theorem greatest_mono {a b : Nat} (h : a ≤ b) : greatest a ≤ greatest b :=
  Nat.sub_le_sub_right (Nat.pow_le_pow_right (by decide) h) 1

/-- `maxBits` is the widest width whose greatest integer has a numeral that is short enough. -/
theorem greatest_lt_iff (bits : Nat) :
    greatest bits < Nat.pow 10 Decimal.maxDigits ↔ bits ≤ maxBits := by
  have low : greatest maxBits < Nat.pow 10 Decimal.maxDigits := by decide +kernel
  have high : Nat.pow 10 Decimal.maxDigits ≤ greatest (maxBits + 1) := by decide +kernel
  refine ⟨fun h => Nat.le_of_not_lt fun wide => ?_, fun h => Nat.lt_of_le_of_lt (greatest_mono h) low⟩
  exact Nat.lt_irrefl _ (Nat.lt_of_lt_of_le h (Nat.le_trans high (greatest_mono wide)))

/-- The limit of a width of that many bits, if it can be written. Wider ones are refused without
computing them. -/
def ofBits (bits : Nat) : Except Decimal.TooLong Limit :=
  if h : bits ≤ maxBits then .ok
    { value := greatest bits
      digits := Nat.toDigits 10 (greatest bits)
      digits_eq := rfl
      short := by
        rwa [Nat.length_toDigits_le_iff (by decide) (by decide), ← Nat.pow_eq, greatest_lt_iff] }
  else .error .number

theorem ofBits_eq_write (bits : Nat) :
    (ofBits bits).map (·.digits) = Decimal.write (greatest bits) := by
  unfold ofBits Decimal.write
  simp only [greatest_lt_iff]
  split <;> rfl

/-! ### Reading up to a limit -/

/-- The value of a run of digits, or none if it exceeds the limit. Leading zeros do not count; a run
with more digits than the limit is known to exceed it. -/
def read (limit : Limit) (digits : List Char) : Except Decimal.TooLong (Option Nat) :=
  let significant := Decimal.significant digits
  if limit.digits.length < significant.length then .ok none
  else
    match Decimal.readNat significant with
    | .error reason => .error reason
    | .ok value => .ok (if value ≤ limit.value then some value else none)

/-- Reading up to a limit is never refused, since a limit is short. -/
theorem read_eq (limit : Limit) (digits : List Char) :
    limit.read digits = .ok
      (if limit.digits.length < (Decimal.significant digits).length then none
      else if Decimal.value (Decimal.significant digits) ≤ limit.value then
        some (Decimal.value (Decimal.significant digits))
      else none) := by
  unfold read Decimal.readNat
  by_cases long : limit.digits.length < (Decimal.significant digits).length
  · simp [long]
  · have short : (Decimal.significant digits).length ≤ Decimal.maxDigits :=
      Nat.le_trans (Nat.le_of_not_lt long) limit.short
    simp [long, short]

end Limit

end Lexis

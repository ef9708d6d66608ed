import Lexis.Proofs.Observation
import Mathlib.Data.Nat.Digits.Defs

/-!
# The decision on a numeral

* `Decimal.placeValue digits`: the value of the digits by their places in base ten;
* `limit.Decides digits`: the decision on the digits, made by counting first, is that of the values, and
  what is read for it is short.

`numeral_decided` says that the scan of a numeral gives its token just if its value is within the limit of
the width, and its fault otherwise, however many digits and leading zeros it has.
-/

namespace Lexis

namespace Decimal

/-- The value of digits by their places, the last of which counts ones. -/
def placeValue (digits : List Char) : Nat :=
  Nat.ofDigits 10 (digits.reverse.map fun c => c.toNat - '0'.toNat)

theorem value_eq_placeValue (digits : List Char) : value digits = placeValue digits := by
  induction digits using List.reverseRecOn with
  | nil => rfl
  | append_singleton digits d ih =>
    have last : value (digits ++ [d]) = 10 * value digits + (d.toNat - '0'.toNat) :=
      Nat.ofDigitChars_append 0
    rw [last, ih, placeValue, placeValue, List.reverse_concat, List.map_cons, Nat.ofDigits_cons,
      Nat.add_comm]

end Decimal

namespace Limit

/-- **The decision on digits**: too many of them, or too large a value. -/
structure Decides (limit : Limit) (digits : List Char) : Prop where
  /-- The count alone never decides otherwise than the value. -/
  agrees : limit.digits.length < (Decimal.significant digits).length ∨
      limit.value < Decimal.value (Decimal.significant digits) ↔
    limit.value < Decimal.placeValue digits
  /-- Digits that are few enough to be compared by their value can be read. -/
  short : ¬ limit.digits.length < (Decimal.significant digits).length →
    (Decimal.significant digits).length ≤ 4300 ∧
      Decimal.readNat (Decimal.significant digits) = .ok (Decimal.placeValue digits)
  read : limit.read digits =
    .ok (if Decimal.placeValue digits ≤ limit.value then some (Decimal.placeValue digits) else none)

theorem decides (limit : Limit) {digits : List Char} (all : digits.all Char.isDigit = true) :
    limit.Decides digits := by
  have value : Decimal.value (Decimal.significant digits) = Decimal.placeValue digits := by
    rw [Decimal.value_significant, Decimal.value_eq_placeValue]
  refine ⟨?_, fun few => ?_, ?_⟩
  · rw [value]
    refine ⟨?_, .inr⟩
    rintro (long | large)
    · rw [← Decimal.value_eq_placeValue]
      exact limit.value_lt_of_length_lt all long
    · exact large
  · have short : (Decimal.significant digits).length ≤ Decimal.maxDigits :=
      Nat.le_trans (Nat.le_of_not_lt few) limit.short
    exact ⟨short, by rw [Decimal.readNat, if_pos short, value]⟩
  · rw [limit.read_eq_of_digits all, Decimal.value_eq_placeValue]

end Limit

/-! ### The scan of a numeral -/

/-- The token of a text that is a numeral. -/
def numeralToken (file numeral : String) (value : Nat) : Token where
  kind := .integer
  lexeme := numeral
  payload := some (.integer value)
  location := ⟨file, 1, 1, 0⟩
  stop := numeral.toList.length

/-- The fault of a text that is a numeral. -/
def numeralFault (file numeral : String) (greatest : Nat) : Diagnostic :=
  .numericOverflow numeral greatest ⟨file, 1, 1, 0⟩

section

variable {config : Config} {numeral : String} (narrow : config.bits ≤ Limit.maxBits)
  (file : Option String) (nonempty : numeral ≠ "")
  (all : numeral.toList.all Char.isDigit = true)
include narrow nonempty all

theorem scan_numeral {tokens : List Token} {diagnostics : List Diagnostic}
    (gives : Gives config (config.fileName file) [] (.numeral numeral.toList) tokens diagnostics) :
    scan numeral file config =
      .ok ⟨tokens ++ [eofBehind (config.fileName file) numeral.toList], diagnostics⟩ := by
  have some : numeral.toList ≠ [] := fun none => nonempty (String.toList_eq_nil_iff.1 none)
  have rule : Rule numeral.toList [] (.numeral numeral.toList) :=
    .regular (.numeral some all (endsBefore_nil _))
  have scanned := scan_single narrow file rule gives
  rwa [String.ofList_toList] at scanned

theorem scan_of_le (small : Decimal.placeValue numeral.toList ≤ config.maxInteger) :
    scan numeral file config =
      .ok ⟨[numeralToken (config.fileName file) numeral (Decimal.placeValue numeral.toList),
        eofBehind (config.fileName file) numeral.toList], []⟩ := by
  rw [← Decimal.value_eq_placeValue] at small ⊢
  rw [scan_numeral narrow file nonempty all (.integer _ small), Piece.tokenBehind,
    String.ofList_toList]
  rfl

theorem scan_of_lt (large : config.maxInteger < Decimal.placeValue numeral.toList) :
    scan numeral file config =
      .ok ⟨[eofBehind (config.fileName file) numeral.toList],
        [numeralFault (config.fileName file) numeral config.maxInteger]⟩ := by
  rw [← Decimal.value_eq_placeValue] at large
  rw [scan_numeral narrow file nonempty all (.overflow _ large), String.ofList_toList]
  rfl

end

end Lexis

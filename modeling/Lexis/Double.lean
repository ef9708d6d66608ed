import Lexis.Decimal

/-!
Doubles and the form in which they are shown: by the fewest digits that are read as the double, and among
those by the ones that are nearest to it. Numbers of middling size are shown in positional form, with
something behind the point; others have an exponent.

Decimals are counted in units of `10 ^ -1076` here: every double is a whole number of them, and so is the
middle between a double and its neighbour.
-/

namespace Lexis

/-- A finite double without its sign, by the two fields of its format. -/
structure Magnitude where
  exponent : Fin 2047
  fraction : Fin 0x10000000000000
  deriving DecidableEq

/-- A double that is a number or infinite. -/
inductive Double
  | finite (negative : Bool) (magnitude : Magnitude)
  | infinite (negative : Bool)
  deriving DecidableEq

namespace Magnitude

/-! ### The number and what is read as it -/

/-- The fraction behind its leading bit, which the numbers of the least exponent do not have. -/
def significand (x : Magnitude) : Nat :=
  if x.exponent.val = 0 then x.fraction.val else 0x10000000000000 + x.fraction.val

/-- A quarter of the way to the next number, in units. -/
def quarter (x : Magnitude) : Nat := Nat.pow 5 1076 * Nat.pow 2 (x.exponent.val - 1)

/-- The number, in units. -/
def units (x : Magnitude) : Nat := 4 * x.significand * x.quarter

/-- The number, if it is a whole one. -/
def whole? (x : Magnitude) : Option Nat :=
  if x.units % Nat.pow 10 1076 = 0 then some (x.units / Nat.pow 10 1076) else none

/-- The middle between the number and the one before it, which is nearer where the exponent changes. -/
def lower (x : Magnitude) : Nat :=
  (4 * x.significand - if x.fraction.val = 0 ∧ 1 < x.exponent.val then 1 else 2) * x.quarter

/-- The middle between the number and the next one. -/
def upper (x : Magnitude) : Nat := (4 * x.significand + 2) * x.quarter

/-- The decimal is read as the number: it is nearer to it than to its neighbours, or in the middle if the
significand is even. -/
def Reads (x : Magnitude) (n : Nat) : Prop :=
  x.lower < n ∧ n < x.upper ∨ x.significand % 2 = 0 ∧ (n = x.lower ∨ n = x.upper)

instance (x : Magnitude) (n : Nat) : Decidable (x.Reads n) := inferInstanceAs (Decidable (_ ∨ _))

/-! ### The fewest digits -/

/-- The multiple of `10 ^ places` that is nearest to the number among those that are read as it, divided by
`10 ^ places`. Of two that are equally near it is the even one. -/
def nearest? (x : Magnitude) (places : Nat) : Option Nat :=
  let step := Nat.pow 10 places
  let below := x.units / step
  let above := below + 1
  let rest := x.units % step
  if x.Reads (below * step) then
    if x.Reads (above * step) ∧ (step < 2 * rest ∨ step = 2 * rest ∧ below % 2 = 1) then some above
    else some below
  else if x.Reads (above * step) then some above
  else none

/-- The nearest decimal of the fewest digits that is read as the number, given by its digits and the count
of the zeros behind them, which are at most `places`. -/
def shortest (x : Magnitude) : Nat → Nat × Nat
  | 0 => (x.units, 0)
  | places + 1 =>
    match x.nearest? (places + 1) with
    | some digits => (digits, places + 1)
    | none => x.shortest places

end Magnitude

/-! ### Forms -/

namespace Decimal

/-- The digits of a positive number whose decimal point stands behind the first `point` of them,
where `point` may lie before the first digit or behind the last. -/
def positional (digits : List Char) (point : Int) : List Char :=
  if point ≤ 0 then '0' :: '.' :: (List.replicate (-point).toNat '0' ++ digits)
  else
    let whole := digits.take point.toNat
    let rest := digits.drop point.toNat
    whole ++ List.replicate (point.toNat - digits.length) '0' ++
      '.' :: if rest = [] then ['0'] else rest

/-- The same with one digit before the point and a signed exponent of two digits or more. -/
def scientific (digits : List Char) (point : Int) : List Char :=
  let exponent := point - 1
  let written := Nat.toDigits 10 exponent.natAbs
  let mantissa :=
    match digits with
    | first :: second :: rest => first :: '.' :: second :: rest
    | short => short
  mantissa ++ 'e' :: (if exponent < 0 then '-' else '+') ::
    (List.replicate (2 - written.length) '0' ++ written)

end Decimal

/-- The number as it is shown. The positional form serves while the point stands at most sixteen
digits behind the first and at most four before it. -/
def Magnitude.shown (x : Magnitude) : List Char :=
  if x.significand = 0 then ['0', '.', '0']
  else
    let (number, zeros) := x.shortest (Nat.toDigits 10 x.units).length
    let digits := Nat.toDigits 10 number
    let point := (digits.length : Int) + zeros - 1076
    if -4 < point ∧ point ≤ 16 then Decimal.positional digits point
    else Decimal.scientific digits point

namespace Double

/-- The number, if it is a whole one. The two zeros are the same number. -/
def whole? : Double → Option Int
  | finite false x => x.whole?.map fun n => n
  | finite true x => x.whole?.map fun n => -n
  | infinite _ => none

/-- The double as it is shown. -/
def text : Double → String
  | finite false x => String.ofList x.shown
  | finite true x => String.ofList ('-' :: x.shown)
  | infinite false => "inf"
  | infinite true => "-inf"

end Double

end Lexis

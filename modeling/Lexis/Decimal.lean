/-!
Decimal numerals. Numbers are written and read up to a fixed count of digits; longer ones are
refused, so that writing and reading stay fast. `ofNat` and `ofInt` write without that limit, where
the number is known to be small.
-/

namespace Lexis.Decimal

/-! ### Writing and reading -/

/-- The digits of a number, without leading zeros. -/
def ofNat (n : Nat) : String := String.ofList (Nat.toDigits 10 n)

/-- The digits of a number, after a minus sign if it is negative. -/
def ofInt : Int → String
  | .ofNat n => ofNat n
  | .negSucc n => "-" ++ ofNat (n + 1)

/-- The value of a run of digits. -/
def value (digits : List Char) : Nat := Nat.ofDigitChars 10 digits 0

/-- The value of a run of digits that a minus sign may precede. -/
def intValue : List Char → Int
  | '-' :: digits => -(value digits : Int)
  | digits => value digits

/-- The run without its leading zeros; of a run of zeros, one is left. -/
def significant (digits : List Char) : List Char :=
  match digits.dropWhile (· = '0') with
  | [] => ['0']
  | rest => rest

/-! ### The limit on the count of digits -/

/-- The most digits that a numeral may have. -/
def maxDigits : Nat := 4300

/-- Why a number is not written or a numeral not read. -/
inductive TooLong
  /-- The number has no numeral short enough. -/
  | number
  /-- The numeral has too many digits, this many. -/
  | numeral (digits : Nat)
  deriving DecidableEq

namespace TooLong

def message (refusal : TooLong) : String :=
  "Exceeds the limit (" ++ ofNat maxDigits ++ " digits) for integer string conversion" ++
    match refusal with
    | number => "; use sys.set_int_max_str_digits() to increase the limit"
    | numeral digits =>
      ": value has " ++ ofNat digits ++
        " digits; use sys.set_int_max_str_digits() to increase the limit"

end TooLong

/-- The digits of a number that is short enough. -/
def write (n : Nat) : Except TooLong (List Char) :=
  if n < Nat.pow 10 maxDigits then .ok (Nat.toDigits 10 n) else .error .number

/-- The numeral of a number that is short enough. -/
def writeInt (n : Int) : Except TooLong String :=
  if n.natAbs < Nat.pow 10 maxDigits then .ok (ofInt n) else .error .number

/-- The value of a run of digits that is short enough. -/
def readNat (digits : List Char) : Except TooLong Nat :=
  if digits.length ≤ maxDigits then .ok (value digits) else .error (.numeral digits.length)

/-- The value of a signed numeral that is short enough. -/
def read (numeral : List Char) : Except TooLong Int :=
  let digits := numeral.countP Char.isDigit
  if digits ≤ maxDigits then .ok (intValue numeral) else .error (.numeral digits)

end Lexis.Decimal

/-!
Numbers in base sixteen, as they stand in escapes and in the names of code points.
-/

namespace Lexis.Text.Hex

/-- The last `width` digits of `n`, each written by `digit`; zeros fill up from the left. -/
def fixed (digit : Nat → Char) : Nat → Nat → List Char
  | 0, _ => []
  | width + 1, n => fixed digit width (n / 16) ++ [digit (n % 16)]

/-- A digit with small letters. -/
def lower (n : Nat) : Char := n.digitChar

/-- A digit with capital letters. -/
def upper (n : Nat) : Char := n.digitChar.toUpper

@[simp] theorem length_fixed (digit : Nat → Char) (width n : Nat) :
    (fixed digit width n).length = width := by
  induction width generalizing n with
  | zero => rfl
  | succ width ih => simp [fixed, ih]

/-- The name of a code point, as in `U+00E9`: four capital digits, more only where they are needed. -/
def codePoint (c : Char) : List Char :=
  let n := c.toNat
  let width := if n < 0x10000 then 4 else if n < 0x100000 then 5 else 6
  'U' :: '+' :: fixed upper width n

end Lexis.Text.Hex

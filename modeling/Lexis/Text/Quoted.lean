import Lexis.Alphabet
import Lexis.Text.Hex
import Lexis.Text.Printable

/-!
Texts between quotes, as messages and debug forms show them: the single quotes are preferred, and
whatever is not printable is written as an escape, so the written form is printable throughout.
-/

namespace Lexis.Text

/-- A text stands between single quotes, unless it holds single quotes and no double ones. -/
def quoteFor (cs : List Char) : Quote :=
  if Quote.single.char ∈ cs ∧ Quote.double.char ∉ cs then .double else .single

/-- The character inside a text that stands between the quotes `q`: a backslash comes before
backslashes and before the quote, tab and the two line ends have escapes of one letter, and other
unprintable characters are given by number, in two, four or eight digits. -/
def escape (q : Quote) (c : Char) : List Char :=
  if c = '\\' ∨ c = q.char then ['\\', c]
  else if c = '\t' then ['\\', 't']
  else if c = '\n' then ['\\', 'n']
  else if c = '\r' then ['\\', 'r']
  else if isPrintable c then [c]
  else if c.toNat < 0x100 then '\\' :: 'x' :: Hex.fixed Hex.lower 2 c.toNat
  else if c.toNat < 0x10000 then '\\' :: 'u' :: Hex.fixed Hex.lower 4 c.toNat
  else '\\' :: 'U' :: Hex.fixed Hex.lower 8 c.toNat

/-- The text between its quotes. -/
def quote (cs : List Char) : List Char :=
  let q := quoteFor cs
  q.char :: (cs.flatMap (escape q) ++ [q.char])

/-- A text between its quotes. -/
def quoted (s : String) : String := String.ofList (quote s.toList)

end Lexis.Text

/-!
Lines of a text. Only the line feed ends a line; the last line has none.
-/

namespace Lexis.Text

/-- The line of the text with the given number of lines before it, and no characters if there is no
such line. -/
def nthLine : Nat → List Char → List Char
  | 0, cs => cs.takeWhile (· ≠ '\n')
  | _ + 1, [] => []
  | n + 1, c :: cs => if c = '\n' then nthLine n cs else nthLine (n + 1) cs

/-- The line with the given number, counted from one. A number below one names no line. -/
def lineAt (number : Int) (source : String) : String :=
  if number < 1 then "" else String.ofList (nthLine (number - 1).toNat source.toList)

/-- Lines written one below the other, each closed by a line feed. -/
def unlines (lines : List String) : String := String.join (lines.map (· ++ "\n"))

end Lexis.Text

import Lexis.Diagnostic

/-!
The diagnostics that a scan makes, one function for each kind of fault, and the advice that goes
with an unexpected character: how the language writes an operator that other languages write so.
-/

namespace Lexis

/-- What to write in place of an operator of other languages. -/
def alternatives (operator : String) : List String :=
  if operator = "&" then ["and"]
  else if operator = "|" then ["or"]
  else if operator = "#" then ["//"]
  else if operator = "`" then ["\"", "'"]
  else []

namespace Diagnostic

/-- The character as a message names it: itself if it can be shown, its code point otherwise. -/
def describe (c : Char) : String :=
  if Text.isPrintable c then String.ofList ['\'', c, '\'']
  else String.ofList (Text.Hex.codePoint c)

/-- The help on a character that starts nothing. -/
def characterHelp (c : Char) : String :=
  match alternatives c.toString with
  | [] =>
    if Text.isPrintable c then
      if c.toNat < 128 then "The character " ++ describe c ++ " is not valid in Monk source code."
      else "Only ASCII letters, digits and underscores may appear in names."
    else "Non-printable character (Unicode: " ++ describe c ++ ") is not allowed."
  | spellings =>
    if c = '#' then "Comments start with '//'."
    else "Did you mean " ++ " or ".intercalate (spellings.map Text.quoted) ++ "?"

/-- A character that starts nothing. -/
def unexpectedCharacter (c : Char) (location : Location) : Diagnostic where
  fault := .unexpectedCharacter
  message := "Unexpected character " ++ describe c
  location := location
  help := some (characterHelp c)
  suggestions :=
    match alternatives c.toString with
    | [] => none
    | spellings => some spellings

/-- A string that the text ends before its closing quote. -/
def unterminatedString (quote : String) (location : Location) : Diagnostic where
  fault := .unterminatedLiteral
  message := "Unterminated string"
  location := location
  help := some ("String literals must be closed with a matching " ++ quote ++ " quote.")
  suggestions := some ["Add a closing " ++ quote ++ " quote"]

/-- A numeral whose value exceeds the limit. -/
def numericOverflow (lexeme : String) (limit : Int) (location : Location) : Diagnostic where
  fault := .numericOverflow
  message := "Integer literal " ++ lexeme ++ " is too large"
  location := location
  help := some ("Integer literals must not exceed " ++ Decimal.ofInt limit ++ ".")

end Diagnostic

end Lexis

import Lexis.Kind
import Lexis.Position

/-!
Tokens: a kind, the spelling, what it stands for, and where it stands. A string's spelling is its
contents, while its place covers the quotes as well. `Token.short` and `Token.debug` are the forms in
which tokens are shown.
-/

namespace Lexis

/-- What a token stands for, beside its kind: a number, or the text of a string or keyword. -/
inductive Literal
  | integer (value : Int)
  | text (value : String)
  deriving DecidableEq

namespace Literal

/-- The value alone: a number by its digits, a text as it is. -/
def bare : Literal → String
  | integer value => Decimal.ofInt value
  | text value => value

/-- The value as debug forms show it: a text stands between quotes. -/
def shown : Literal → String
  | integer value => Decimal.ofInt value
  | text value => Text.quoted value

/-- The literal in full, for debugging. -/
def debug : Literal → String
  | integer value => "IntLiteral(value=" ++ Decimal.ofInt value ++ ")"
  | text value => "StrLiteral(value=" ++ Text.quoted value ++ ")"

end Literal

/-- A token of a text. -/
structure Token where
  kind : Kind
  lexeme : String
  payload : Option Literal
  location : Location
  /-- The offset behind the token. -/
  stop : Int
  deriving DecidableEq

namespace Token

def line (token : Token) : Int := token.location.line

/-- The offsets of the token: its first character and the one behind its last. -/
def span (token : Token) : Int × Int := (token.location.offset, token.stop)

/-- The kind and the spelling, and the value if it is not just the spelling. -/
def short (token : Token) : String :=
  let value :=
    match token.payload with
    | none => ""
    | some literal => if literal = .text token.lexeme then "" else " -> " ++ literal.shown
  token.kind.name ++ "(" ++ Text.quoted token.lexeme ++ value ++ ")"

/-- The token in full but for its end, for debugging. -/
def debug (token : Token) : String :=
  "Token(" ++ token.kind.name ++ ", " ++ Text.quoted token.lexeme ++ ", " ++
    (token.payload.map Literal.debug).getD "None" ++ ", " ++ token.location.debug ++ ")"

end Token

end Lexis

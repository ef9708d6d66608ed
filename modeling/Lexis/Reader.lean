import Lexis.Config
import Lexis.Diagnostic.Advice
import Lexis.Piece
import Lexis.Token

/-!
What a piece of a text means: nothing, a token, or a fault. That depends on the settings, and a
`Reader` holds what of them it depends on. A numeral cannot be read at all if the limit it has to be
compared with cannot be written.
-/

namespace Lexis

/-- The part of the settings that says what pieces mean. -/
structure Reader where
  file : String
  keywords : Dictionary String Keyword
  limit : Except Decimal.TooLong Limit

/-- What a piece means. -/
inductive Reading
  /-- The piece only separates others. -/
  | blank
  | token (token : Token)
  | fault (diagnostic : Diagnostic)
  /-- The piece cannot be read, and nothing behind it is. -/
  | refused (reason : Decimal.TooLong)

namespace Reader

/-- The token of a piece that starts at `start` and ends before `stop`. -/
def token (reader : Reader) (start stop : Position) (kind : Kind) (lexeme : List Char)
    (payload : Option Literal) : Token where
  kind := kind
  lexeme := String.ofList lexeme
  payload := payload
  location := start.locate reader.file
  stop := stop.offset

/-- The token of a word: a keyword with its spelling if the table has it, a name otherwise. -/
def word (reader : Reader) (start stop : Position) (spelling : List Char) : Token :=
  match reader.keywords.get? (String.ofList spelling) with
  | some keyword =>
    reader.token start stop (.keyword keyword) spelling (some (.text (String.ofList spelling)))
  | none => reader.token start stop .identifier spelling none

/-- The meaning of a numeral: its value if that is within the limit. -/
def numeral (reader : Reader) (start stop : Position) (digits : List Char) : Reading :=
  match reader.limit with
  | .error reason => .refused reason
  | .ok limit =>
    match limit.read digits with
    | .error reason => .refused reason
    | .ok (some value) => .token (reader.token start stop .integer digits (some (.integer value)))
    | .ok none =>
      .fault (.numericOverflow (String.ofList digits) limit.value (start.locate reader.file))

/-- The meaning of a piece that starts at `start`. -/
def read (reader : Reader) (start : Position) (piece : Piece) : Reading :=
  let stop := start.after piece.text
  match piece with
  | .mark m => .token (reader.token start stop (.mark m) m.spelling none)
  | .comment _ | .space | .newline => .blank
  | .quoted _ body =>
    .token (reader.token start stop .string body (some (.text (String.ofList body))))
  | .unclosed q _ => .fault (.unterminatedString q.char.toString (start.locate reader.file))
  | .numeral digits => reader.numeral start stop digits
  | .word spelling => .token (reader.word start stop spelling)
  | .stray c => .fault (.unexpectedCharacter c (start.locate reader.file))

/-- The token behind the last piece. -/
def eof (reader : Reader) (stop : Position) : Token := reader.token stop stop .eof [] none

end Reader

/-- What a config has a reader know about texts of that name. -/
def Config.reader (config : Config) (file : String) : Reader where
  file := file
  keywords := config.keywords
  limit := config.limit

end Lexis

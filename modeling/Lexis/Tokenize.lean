import Lexis.Diagnostic.Report
import Lexis.Scan
import Lexis.Text.Utf8
import Lexis.Value

/-!
Tokens of whole texts, for callers that take any fault as a failure: `tokenizeString` reads a text,
and `tokenizeFile` what is found at a path. The settings are the standard ones.
-/

namespace Lexis

def version : String := "0.1.0"

/-- The name of a text that is given as a string and has no other name. -/
def stringFile : String := "<string>"

/-! ### Texts -/

/-- A value that is no text, given in place of one. -/
structure NotText where
  value : Value

def NotText.message (refusal : NotText) : String :=
  "source must be str, got " ++ refusal.value.typeName

def textOf : Value → Except NotText String
  | .scalar (.text source) => .ok source
  | value => .error ⟨value⟩

/-- The tokens of a text without faults; of a text with faults, the first. -/
def tokenizeString (source : String) (file : String) : Except Diagnostic (List Token) :=
  let outcome := Config.standard.outcome file source.toList
  match outcome.diagnostics with
  | diagnostic :: _ => .error diagnostic
  | [] => .ok outcome.tokens

/-! ### Files -/

/-- What is found at a path. -/
inductive PathContent
  | absent
  | directory
  | file (bytes : List UInt8)

/-- Why a file gives no tokens. -/
inductive FileError
  | notFound (path : String)
  | isDirectory (path : String)
  /-- The bytes are no UTF-8. -/
  | malformed (malformed : Text.Utf8.Malformed)
  /-- The text has a fault. -/
  | fault (diagnostic : Diagnostic)

/-- The tokens of the text at a path, which has the path as its name. The bytes are read in full
before the text is scanned. -/
def tokenizeFile (path : String) : PathContent → Except FileError (List Token)
  | .absent => .error (.notFound path)
  | .directory => .error (.isDirectory path)
  | .file bytes =>
    match Text.Utf8.decode bytes with
    | .error malformed => .error (.malformed malformed)
    | .ok source => (tokenizeString (String.ofList source) path).mapError .fault

def FileError.message : FileError → String
  | notFound path => "[Errno 2] No such file or directory: " ++ Text.quoted path
  | isDirectory path => "[Errno 21] Is a directory: " ++ Text.quoted path
  | malformed m => m.message
  | fault diagnostic => diagnostic.report

end Lexis

import Lexis.Position

/-!
Diagnostics: what is wrong with a text, and where. This module says what a diagnostic is;
`Lexis.Diagnostic.Advice` builds those of a scan, with their help, and `Lexis.Diagnostic.Report` shows them.
-/

namespace Lexis

/-- The kinds of faults that a text can have. -/
inductive Fault
  | unexpectedCharacter
  | unterminatedLiteral
  | numericOverflow
  deriving DecidableEq

/-- A code that no fault has. -/
structure UnknownFault where
  code : String
  deriving DecidableEq

def UnknownFault.message (unknown : UnknownFault) : String :=
  Text.quoted unknown.code ++ " is not a valid DiagnosticKind"

namespace Fault

def all : List Fault := [unexpectedCharacter, unterminatedLiteral, numericOverflow]

/-- The code by which reports name the fault. -/
def code : Fault → String
  | unexpectedCharacter => "L001"
  | unterminatedLiteral => "L002"
  | numericOverflow => "L007"

/-- The name of the fault as a constant. -/
def constant : Fault → String
  | unexpectedCharacter => "UNEXPECTED_CHARACTER"
  | unterminatedLiteral => "UNTERMINATED_LITERAL"
  | numericOverflow => "NUMERIC_OVERFLOW"

def title : Fault → String
  | unexpectedCharacter => "Unexpected character"
  | unterminatedLiteral => "Unterminated string literal"
  | numericOverflow => "Number literal overflow"

def ofCode (code : String) : Except UnknownFault Fault :=
  match all.find? (·.code = code) with
  | some fault => .ok fault
  | none => .error ⟨code⟩

end Fault

/-- A fault with its place, and what there is to say about it. -/
structure Diagnostic where
  fault : Fault
  message : String
  location : Location
  severity : String := "error"
  help : Option String := none
  suggestions : Option (List String) := none
  deriving DecidableEq

end Lexis

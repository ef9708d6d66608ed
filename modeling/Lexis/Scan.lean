import Lexis.Reader

/-!
Scans: the pieces of a text read one after the other, with the tokens and diagnostics they give. A
scan goes on after a fault, so it finds all of them; only a numeral that cannot be read stops it.
`Outcome` tells what a scan leaves behind in either case, and `scan` gives the result of one that was
not stopped.

Texts are sequences of Unicode scalar values here and in all that follows; texts with lone surrogates are
left out.
-/

namespace Lexis

/-- What a scan leaves behind. -/
structure Outcome where
  tokens : List Token
  diagnostics : List Diagnostic
  /-- How far the scan came. -/
  stop : Position
  /-- What stopped the scan before the end of the text. -/
  refusal : Option Decimal.TooLong

namespace Outcome

def addToken (token : Token) (outcome : Outcome) : Outcome :=
  { outcome with tokens := token :: outcome.tokens }

def addDiagnostic (diagnostic : Diagnostic) (outcome : Outcome) : Outcome :=
  { outcome with diagnostics := diagnostic :: outcome.diagnostics }

end Outcome

/-- Reads the pieces of a text, the first of which starts at `start`. Behind the last one stands the
token of the end; a piece that cannot be read is passed over, and no other is read. -/
def Reader.run (reader : Reader) (start : Position) : List Piece → Outcome
  | [] => ⟨[reader.eof start], [], start, none⟩
  | piece :: pieces =>
    let stop := start.after piece.text
    match reader.read start piece with
    | .blank => reader.run stop pieces
    | .token token => (reader.run stop pieces).addToken token
    | .fault diagnostic => (reader.run stop pieces).addDiagnostic diagnostic
    | .refused reason => ⟨[], [], stop, some reason⟩

/-- The scan of a text of that name. -/
def Config.outcome (config : Config) (file : String) (source : List Char) : Outcome :=
  (config.reader file).run .start (Piece.cut source)

/-! ### Results -/

/-- The tokens and diagnostics of a text that was scanned to its end. -/
structure ScanResult where
  tokens : List Token
  diagnostics : List Diagnostic
  deriving DecidableEq

def ScanResult.hasErrors (result : ScanResult) : Bool := !result.diagnostics.isEmpty

/-- The result of a scan that reached the end of the text. -/
def Outcome.result (outcome : Outcome) : Except Decimal.TooLong ScanResult :=
  match outcome.refusal with
  | some reason => .error reason
  | none => .ok ⟨outcome.tokens, outcome.diagnostics⟩

/-- The tokens and diagnostics of a text. Without a name of its own the text has that of the
config. -/
def scan (source : String) (file : Option String) (config : Config) :
    Except Decimal.TooLong ScanResult :=
  (config.outcome (config.fileName file) source.toList).result

/-! ### The log of a scan -/

structure LogRecord where
  level : String
  message : String
  deriving DecidableEq

def LogRecord.debug (message : String) : LogRecord := ⟨"DEBUG", message⟩

/-- The record of a diagnostic. -/
def Diagnostic.logRecord (d : Diagnostic) : LogRecord :=
  .debug (d.location.text ++ ": " ++ d.message)

/-- The record of a text that was scanned to its end. -/
def LogRecord.summary (file : String) (tokens diagnostics : Nat) : LogRecord :=
  .debug ("Scanned " ++ file ++ ": " ++ Decimal.ofNat tokens ++ " tokens, " ++
    Decimal.ofNat diagnostics ++ " diagnostics")

/-- What a scan logs: every diagnostic with its place, and at the end of the text the counts. -/
def Outcome.log (outcome : Outcome) (file : String) : List LogRecord :=
  let faults := outcome.diagnostics.map Diagnostic.logRecord
  let summary :=
    match outcome.refusal with
    | some _ => []
    | none => [.summary file outcome.tokens.length outcome.diagnostics.length]
  faults ++ summary

end Lexis

import Lexis.Scan

/-!
Sessions: a lexer kept on one text. A session has a place in the text, which can be moved forward
character by character, and the tokens and diagnostics of its last scan. A scan always starts at the
beginning of the text and leaves the place where it came to; the steps on the place leave the tokens
and diagnostics alone.

A scan works on the session itself: it moves the place over one piece after the other, marks where the
piece starts, and adds what the piece gives to what the session has.
-/

namespace Lexis

/-- A lexer on one text. -/
structure Session where
  source : List Char
  config : Config
  file : String
  position : Position
  /-- Where the piece starts that a scan has passed last. -/
  mark : Position
  tokens : List Token
  diagnostics : List Diagnostic

/-- What can be done in a session. -/
inductive Step
  /-- Scan, for the tokens. -/
  | tokenize
  /-- Scan, for tokens and diagnostics. -/
  | scan
  | hasErrors
  | diagnostics
  | tokens
  | atEnd
  /-- Look at the next character. -/
  | peek
  /-- Pass over the next character. -/
  | advance
  /-- Pass over the next character if it is this one. -/
  | accept (c : Char)
  | file
  | maxInteger
  deriving DecidableEq

/-- Why a step fails. -/
inductive StepError
  /-- There is no next character. -/
  | pastEnd
  /-- The greatest integer cannot be written. -/
  | tooLong (reason : Decimal.TooLong)
  deriving DecidableEq

def StepError.message : StepError → String
  | pastEnd => "string index out of range"
  | tooLong reason => reason.message

inductive Answer
  | tokens (tokens : List Token)
  | diagnostics (diagnostics : List Diagnostic)
  | result (result : ScanResult)
  | flag (value : Bool)
  | text (value : String)
  | failed (error : StepError)
  deriving DecidableEq

namespace Session

/-- A session at the start of a text, before any scan. -/
def start (source : String) (file : Option String) (config : Config) : Session where
  source := source.toList
  config := config
  file := config.fileName file
  position := .start
  mark := .start
  tokens := []
  diagnostics := []

/-- The text from the place on. -/
def rest (session : Session) : List Char := session.source.drop session.position.offset

def hasErrors (session : Session) : Bool := !session.diagnostics.isEmpty

/-- The session one character further on, if the next character is known to be `c`. -/
def pass (session : Session) (c : Char) : Session :=
  { session with position := session.position.next c }

/-- The character that stands for the end of the text when it is looked at. -/
def endMark : Char := '\x00'

/-! ### Scanning -/

/-- The session before a scan: at the start of its text, and with nothing found. -/
def restart (session : Session) : Session :=
  { session with position := .start, tokens := [], diagnostics := [] }

/-- The session behind a piece of that text, and with the mark at its start. -/
def passPiece (session : Session) (text : List Char) : Session :=
  { session with mark := session.position, position := session.position.after text }

def addToken (session : Session) (token : Token) : Session :=
  { session with tokens := session.tokens ++ [token] }

def addDiagnostic (session : Session) (diagnostic : Diagnostic) : Session :=
  { session with diagnostics := session.diagnostics ++ [diagnostic] }

/-- Reads the pieces that stand at the place, and behind them the end of the text. A piece that cannot
be read is passed over, and no other is read. -/
def readPieces (reader : Reader) (session : Session) :
    List Piece → Option Decimal.TooLong × Session
  | [] =>
    let ended := session.passPiece []
    (none, ended.addToken (reader.eof ended.mark))
  | piece :: pieces =>
    let passed := session.passPiece piece.text
    match reader.read passed.mark piece with
    | .blank => passed.readPieces reader pieces
    | .token token => (passed.addToken token).readPieces reader pieces
    | .fault diagnostic => (passed.addDiagnostic diagnostic).readPieces reader pieces
    | .refused reason => (some reason, passed)

/-- A step that scans: it answers what `view` shows of the result, unless the scan was stopped. -/
def rescan (session : Session) (view : ScanResult → Answer) : Answer × Session :=
  let reader := session.config.reader session.file
  match session.restart.readPieces reader (Piece.cut session.source) with
  | (some reason, stopped) => (.failed (.tooLong reason), stopped)
  | (none, done) => (view ⟨done.tokens, done.diagnostics⟩, done)

/-! ### Steps -/

/-- Does one step. A step that fails leaves the place where it was, unless it is a scan. -/
def step (session : Session) : Step → Answer × Session
  | .tokenize => session.rescan fun result => .tokens result.tokens
  | .scan => session.rescan .result
  | .hasErrors => (.flag session.hasErrors, session)
  | .diagnostics => (.diagnostics session.diagnostics, session)
  | .tokens => (.tokens session.tokens, session)
  | .atEnd => (.flag session.rest.isEmpty, session)
  | .peek => (.text (session.rest.headD endMark).toString, session)
  | .advance =>
    match session.rest with
    | [] => (.failed .pastEnd, session)
    | c :: _ => (.text c.toString, session.pass c)
  | .accept c =>
    if session.rest.head? = some c then (.flag true, session.pass c) else (.flag false, session)
  | .file => (.text session.file, session)
  | .maxInteger =>
    match session.config.maxIntegerText with
    | .error reason => (.failed (.tooLong reason), session)
    | .ok text => (.text text, session)

/-- Does the steps one after the other; each answer comes with the session behind its step. -/
def steps (session : Session) : List Step → List (Answer × Session)
  | [] => []
  | s :: rest =>
    let done := session.step s
    done :: done.2.steps rest

end Session

end Lexis

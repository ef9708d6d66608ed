import Lexis.Session

/-!
The log of a session. A scan writes to it while it works: every diagnostic as it is found, before the
session has it, and the counts of what the session has when the end of the text is reached. A scan that
is stopped leaves the log as it is then. No other step writes to the log. `Outcome.log` tells the same of
a scan as a whole.
-/

namespace Lexis

namespace Session

/-- The record of what the session has at the end of its text. -/
def summary (session : Session) : LogRecord :=
  .summary session.file session.tokens.length session.diagnostics.length

/-- Reads the pieces that stand at the place, as `readPieces` does, and writes to the log. -/
def readLogged (reader : Reader) (log : List LogRecord) (session : Session) :
    List Piece → List LogRecord × Option Decimal.TooLong × Session
  | [] =>
    let ended := session.passPiece []
    let done := ended.addToken (reader.eof ended.mark)
    (log ++ [done.summary], none, done)
  | piece :: pieces =>
    let passed := session.passPiece piece.text
    match reader.read passed.mark piece with
    | .blank => passed.readLogged reader log pieces
    | .token token => (passed.addToken token).readLogged reader log pieces
    | .fault diagnostic =>
      (passed.addDiagnostic diagnostic).readLogged reader (log ++ [diagnostic.logRecord]) pieces
    | .refused reason => (log, some reason, passed)

/-- A step that scans, with what it writes to the log. -/
def rescanLogged (log : List LogRecord) (session : Session) (view : ScanResult → Answer) :
    List LogRecord × Answer × Session :=
  let reader := session.config.reader session.file
  match session.restart.readLogged reader log (Piece.cut session.source) with
  | (written, some reason, stopped) => (written, .failed (.tooLong reason), stopped)
  | (written, none, done) => (written, view ⟨done.tokens, done.diagnostics⟩, done)

/-- Does one step, with what it writes to the log. -/
def stepLogged (log : List LogRecord) (session : Session) : Step →
    List LogRecord × Answer × Session
  | .tokenize => session.rescanLogged log fun result => .tokens result.tokens
  | .scan => session.rescanLogged log .result
  | s => (log, session.step s)

end Session

end Lexis

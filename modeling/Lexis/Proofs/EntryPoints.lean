import Lexis.Proofs.Coverage
import Lexis.Proofs.Refusal
import Lexis.Session.Log
import Lexis.Tokenize

/-!
# All ways to look at a scan tell the same

* `session.Logged before log`: behind what was in the log before, it has the records of the diagnostics
  that the session has, in the order of their offsets;
* `session.LogRules log s view scanned`: what a scanning step writes to the log, for a text whose scan
  gives `scanned`;
* `EntryPointsAgree source file result`: all that can be called on the text tells this result.

The log is written while a scan goes on. `Logged` holds after every piece, so also where the text ends and
where the scan is stopped (`logged_readLogged`), and beside the log nothing changes (`stepLogged_snd`).
A session and the outcome of its text are related already, so this is the log of the outcome
(`logged_rescanLogged`).
-/

namespace Lexis

/-! ### Outcomes -/

namespace Outcome

variable {outcome : Outcome}

theorem result_eq_ok_iff {result : ScanResult} : outcome.result = .ok result ↔
    outcome.refusal = none ∧ ⟨outcome.tokens, outcome.diagnostics⟩ = result := by
  rw [Outcome.result]
  cases outcome.refusal <;> simp

theorem result_eq_error_iff {reason : Decimal.TooLong} :
    outcome.result = .error reason ↔ outcome.refusal = some reason := by
  rw [Outcome.result]
  cases outcome.refusal <;> simp

theorem log_of_none (h : outcome.refusal = none) (file : String) :
    outcome.log file = outcome.diagnostics.map Diagnostic.logRecord ++
      [.summary file outcome.tokens.length outcome.diagnostics.length] := by
  unfold log
  rw [h]

theorem log_of_refusal {reason : Decimal.TooLong} (h : outcome.refusal = some reason)
    (file : String) : outcome.log file = outcome.diagnostics.map Diagnostic.logRecord := by
  unfold log
  rw [h]
  exact List.append_nil _

end Outcome

namespace Session

variable {session : Session} {before log : List LogRecord} {pieces : List Piece}

/-- **The log keeps up with the session**: behind what was there before it has a record for every
diagnostic, in the order of the offsets, and all of these lie before the place. -/
structure Logged (session : Session) (before log : List LogRecord) : Prop where
  log : log = before ++ session.diagnostics.map Diagnostic.logRecord
  ascend : session.diagnostics.Pairwise (·.location.offset < ·.location.offset)
  passed : ∀ d ∈ session.diagnostics, d.location.offset < session.position.offset

/-! ### One piece -/

theorem Logged.restart (session : Session) (before : List LogRecord) :
    session.restart.Logged before before where
  log := (List.append_nil before).symm
  ascend := .nil
  passed := by
    intro d member
    cases member

theorem Logged.pass (h : session.Logged before log) (text : List Char) :
    (session.passPiece text).Logged before log where
  log := h.log
  ascend := h.ascend
  passed := by
    intro d member
    have lies := h.passed d member
    simp only [passPiece, Position.offset_after]
    omega

theorem Logged.addToken (h : session.Logged before log) (token : Token) :
    (session.addToken token).Logged before log := ⟨h.log, h.ascend, h.passed⟩

theorem Logged.addDiagnostic (h : session.Logged before log) {text : List Char} (nonempty : text ≠ [])
    {d : Diagnostic} (here : d.location.offset = session.position.offset) :
    ((session.passPiece text).addDiagnostic d).Logged before (log ++ [d.logRecord]) where
  log := by
    simp only [Session.addDiagnostic, passPiece, List.map_append, List.map_singleton, h.log,
      List.append_assoc]
  ascend := by
    refine List.pairwise_append.2 ⟨h.ascend, List.pairwise_singleton _ _, ?_⟩
    intro e member f new
    rw [List.mem_singleton.1 new, here]
    exact h.passed e member
  passed := by
    have further := List.length_pos_iff.2 nonempty
    intro e member
    simp only [Session.addDiagnostic, passPiece, Position.offset_after]
    rcases List.mem_append.1 member with old | new
    · have lies := h.passed e old
      omega
    · rw [List.mem_singleton.1 new, here]
      omega

end Session

theorem Reader.location_of_read {reader : Reader} {start : Position} {piece : Piece} {d : Diagnostic}
    (h : reader.read start piece = .fault d) : d.location = start.locate reader.file := by
  cases piece with
  | unclosed | stray =>
    cases h
    rfl
  | numeral digits =>
    simp only [read, numeral] at h
    cases written : reader.limit with
    | error reason =>
      rw [written] at h
      cases h
    | ok limit =>
      simp only [written] at h
      split at h
      · cases h
      · cases h
      · cases h
        rfl
  | _ => cases h

namespace Session

variable {session : Session} {before log : List LogRecord} {pieces : List Piece}

/-! ### All pieces -/

/-- **What is in the log when the pieces are read**: at the end of the text the summary behind the
records of the diagnostics, and nothing behind them where the scan is stopped. -/
theorem logged_readLogged (reader : Reader) (h : session.Logged before log) (fits : Fitting pieces) :
    ∃ written, (session.readLogged reader log pieces).2.2.Logged before written ∧
      (session.readLogged reader log pieces).1 =
        match (session.readLogged reader log pieces).2.1 with
        | none => written ++ [(session.readLogged reader log pieces).2.2.summary]
        | some _ => written := by
  induction pieces generalizing session log with
  | nil => exact ⟨log, (h.pass []).addToken _, rfl⟩
  | cons piece pieces ih =>
    obtain ⟨rule, fits⟩ := fits
    have passed := h.pass piece.text
    rw [readLogged]
    cases reading : reader.read (session.passPiece piece.text).mark piece with
    | blank => exact ih passed fits
    | token token => exact ih (passed.addToken token) fits
    | fault diagnostic =>
      have here : diagnostic.location.offset = session.position.offset := by
        rw [Reader.location_of_read reading]
        rfl
      exact ih (h.addDiagnostic rule.text_ne_nil here) fits
    | refused reason => exact ⟨log, passed, rfl⟩

theorem readLogged_snd (session : Session) (reader : Reader) (log : List LogRecord)
    (pieces : List Piece) :
    (session.readLogged reader log pieces).2 = session.readPieces reader pieces := by
  induction pieces generalizing session log with
  | nil => rfl
  | cons piece pieces ih =>
    rw [readLogged, readPieces]
    cases reader.read (session.passPiece piece.text).mark piece with
    | blank => exact ih _ log
    | token token => exact ih _ log
    | fault diagnostic => exact ih _ _
    | refused reason => rfl

/-! ### One step -/

theorem stepLogged_of_view {s : Step} {view : ScanResult → Answer} (scans : s.view = some view)
    (log : List LogRecord) : session.stepLogged log s = session.rescanLogged log view := by
  cases s <;> cases scans <;> rfl

theorem rescanLogged_fst (session : Session) (log : List LogRecord) (view : ScanResult → Answer) :
    (session.rescanLogged log view).1 =
      (session.restart.readLogged (session.config.reader session.file) log
        (Piece.cut session.source)).1 := by
  rw [rescanLogged]
  rcases session.restart.readLogged _ log _ with ⟨written, reason | reason, done⟩ <;> rfl

theorem rescanLogged_snd (session : Session) (log : List LogRecord) (view : ScanResult → Answer) :
    (session.rescanLogged log view).2 = session.rescan view := by
  rw [rescan, ← readLogged_snd _ _ log, rescanLogged]
  rcases session.restart.readLogged _ log _ with ⟨written, reason | reason, done⟩ <;> rfl

theorem stepLogged_snd (session : Session) (log : List LogRecord) (s : Step) :
    (session.stepLogged log s).2 = session.step s := by
  cases s with
  | tokenize | scan => exact session.rescanLogged_snd log _
  | _ => rfl

/-- **What a scan writes to the log** is the log of what it leaves behind, and the diagnostics there are
in the order of their offsets. -/
theorem logged_rescanLogged (session : Session) (log : List LogRecord) (view : ScanResult → Answer) :
    (session.rescanLogged log view).1 = log ++ session.outcome.log session.file ∧
      session.outcome.diagnostics.Pairwise (·.location.offset < ·.location.offset) := by
  let reader := session.config.reader session.file
  let pieces := Piece.cut session.source
  obtain ⟨written, logged, first⟩ :=
    logged_readLogged reader (Logged.restart session log) (Piece.fitting_cut session.source)
  obtain ⟨mark, read⟩ := session.restart.readPieces_eq_run reader pieces
  have run : reader.run session.restart.position pieces = session.outcome := rfl
  rw [readLogged_snd, read, run] at logged first
  have all : session.restart.diagnostics ++ session.outcome.diagnostics =
      session.outcome.diagnostics := List.nil_append _
  refine ⟨?_, ?_⟩
  · rw [rescanLogged_fst, first, logged.log]
    simp only [keep, all]
    cases refusal : session.outcome.refusal with
    | none =>
      rw [Outcome.log_of_none refusal, ← List.append_assoc]
      rfl
    | some reason => rw [Outcome.log_of_refusal refusal]
  · have ascend := logged.ascend
    rwa [keep, all] at ascend

theorem steps_of_result {result : ScanResult} (reached : session.outcome.result = .ok result) :
    (session.steps [.tokenize, .diagnostics, .hasErrors]).map Prod.fst =
        [.tokens result.tokens, .diagnostics result.diagnostics, .flag result.hasErrors] ∧
      (session.steps [.scan, .tokens, .diagnostics, .hasErrors]).map Prod.fst =
        [.result result, .tokens result.tokens, .diagnostics result.diagnostics,
          .flag result.hasErrors] := by
  obtain ⟨listed, -, diagnostics⟩ :=
    session.step_of_result (rfl : Step.tokenize.view = some fun result => .tokens result.tokens) reached
  obtain ⟨answered, tokens, diagnostics'⟩ :=
    session.step_of_result (rfl : Step.scan.view = some .result) reached
  constructor
  · show [(session.step .tokenize).1, .diagnostics (session.step .tokenize).2.diagnostics,
      .flag (!(session.step .tokenize).2.diagnostics.isEmpty)] = _
    rw [listed, diagnostics]
    rfl
  · show [(session.step .scan).1, .tokens (session.step .scan).2.tokens,
      .diagnostics (session.step .scan).2.diagnostics,
      .flag (!(session.step .scan).2.diagnostics.isEmpty)] = _
    rw [answered, tokens, diagnostics']
    rfl

/-! ### What is written -/

/-- **What a scanning step writes to the log**, beside what it answers and leaves, by what the scan of the
text gives. -/
structure LogRules (session : Session) (log : List LogRecord) (s : Step) (view : ScanResult → Answer)
    (scanned : Except Decimal.TooLong ScanResult) : Prop where
  /-- Writing to the log changes nothing else. -/
  unchanged : (session.stepLogged log s).2 = session.step s
  ascend : (session.step s).2.diagnostics.Pairwise (·.location.offset < ·.location.offset)
  /-- A scan that reaches the end of the text writes its diagnostics and the counts of its result. -/
  reached : ∀ result, scanned = .ok result →
    (session.step s).1 = view result ∧ (session.step s).2.diagnostics = result.diagnostics ∧
      (session.stepLogged log s).1 = log ++ result.diagnostics.map Diagnostic.logRecord ++
        [.summary session.file result.tokens.length result.diagnostics.length]
  /-- A scan that is stopped writes the diagnostics that it leaves. -/
  stopped : ∀ reason, scanned = .error reason →
    (session.step s).1 = .failed (.tooLong reason) ∧
      (session.stepLogged log s).1 =
        log ++ (session.step s).2.diagnostics.map Diagnostic.logRecord

/-- What the session has behind a scan does not depend on what it had. -/
theorem diagnostics_step (session : Session) {s : Step} {view : ScanResult → Answer}
    (scans : s.view = some view) :
    (session.step s).2.diagnostics = session.outcome.diagnostics := by
  obtain ⟨mark, scanned⟩ := session.rescan_eq view
  rw [step_of_view _ scans, scanned]
  exact List.nil_append _

theorem logRules (session : Session) (log : List LogRecord) {s : Step}
    {view : ScanResult → Answer} (scans : s.view = some view) :
    session.LogRules log s view session.outcome.result := by
  obtain ⟨written, ascend⟩ := session.logged_rescanLogged log view
  rw [← stepLogged_of_view scans] at written
  refine ⟨session.stepLogged_snd log s, ?_, ?_, ?_⟩
  · rw [session.diagnostics_step scans]
    exact ascend
  · intro result reached
    obtain ⟨answered, -, diagnostics⟩ := session.step_of_result scans reached
    refine ⟨answered, diagnostics, ?_⟩
    obtain ⟨refusal, rfl⟩ := Outcome.result_eq_ok_iff.1 reached
    rw [written, Outcome.log_of_none refusal, List.append_assoc]
  · intro reason stopped
    have refusal := Outcome.result_eq_error_iff.1 stopped
    obtain ⟨failed, -⟩ := session.step_of_refusal scans refusal
    refine ⟨failed, ?_⟩
    rw [written, Outcome.log_of_refusal refusal, session.diagnostics_step scans]

end Session

/-! ### Texts -/

section

variable {source : String} {file : Option String} {result : ScanResult}

theorem tokenizeString_of_clean (scanned : scan source file Config.standard = .ok result)
    (clean : result.diagnostics = []) :
    tokenizeString source (Config.standard.fileName file) = .ok result.tokens := by
  obtain ⟨tokens, diagnostics⟩ := Outcome.lists_of_result scanned
  simp only [tokenizeString, tokens, diagnostics, clean]

theorem tokenizeString_of_fault (scanned : scan source file Config.standard = .ok result)
    {d : Diagnostic} {later : List Diagnostic} (faults : result.diagnostics = d :: later) :
    tokenizeString source (Config.standard.fileName file) = .error d := by
  obtain ⟨-, diagnostics⟩ := Outcome.lists_of_result scanned
  simp only [tokenizeString, diagnostics, faults]

end

/-- **The entry points agree** on what is found in a text under the standard settings. -/
structure EntryPointsAgree (source : String) (file : Option String) (result : ScanResult) : Prop where
  scanned : scan source file Config.standard = .ok result
  hasErrors : result.hasErrors = decide (result.diagnostics ≠ [])
  fails : (∃ d, tokenizeString source (Config.standard.fileName file) = .error d) ↔
    result.diagnostics ≠ []
  /-- Of several faults the first in the text is the failure. -/
  failure : ∀ d, tokenizeString source (Config.standard.fileName file) = .error d →
    d ∈ result.diagnostics ∧
      ∀ e ∈ result.diagnostics, e ≠ d → d.location.offset < e.location.offset
  succeeds : result.diagnostics = [] →
    tokenizeString source (Config.standard.fileName file) = .ok result.tokens
  /-- A session answers the same, whatever was done there before. -/
  session : ∀ history,
    let lexer := (Session.start source file Config.standard).behind history
    (lexer.steps [.tokenize, .diagnostics, .hasErrors]).map Prod.fst =
        [.tokens result.tokens, .diagnostics result.diagnostics, .flag result.hasErrors] ∧
      (lexer.steps [.scan, .tokens, .diagnostics, .hasErrors]).map Prod.fst =
        [.result result, .tokens result.tokens, .diagnostics result.diagnostics,
          .flag result.hasErrors]

theorem exists_entryPointsAgree (source : String) (file : Option String) :
    ∃ result, EntryPointsAgree source file result := by
  have narrow : Config.standard.bits ≤ Limit.maxBits := by decide
  obtain ⟨tokens, diagnostics, scanned, readings⟩ := scan_readings narrow file source
  have ascend := readings.diagnostics_ascend
  have clean := tokenizeString_of_clean scanned
  refine ⟨_, scanned, ?_, ?_, ?_, clean, ?_⟩
  · cases diagnostics <;> rfl
  · constructor
    · rintro ⟨d, failed⟩ noFault
      rw [clean noFault] at failed
      cases failed
    · intro fault
      obtain ⟨d, later, faults⟩ := List.exists_cons_of_ne_nil fault
      exact ⟨d, tokenizeString_of_fault scanned faults⟩
  · intro d failed
    cases diagnostics with
    | nil =>
      rw [clean rfl] at failed
      cases failed
    | cons first later =>
      rw [tokenizeString_of_fault scanned rfl] at failed
      cases failed
      refine ⟨List.mem_cons_self, ?_⟩
      intro e member other
      rcases List.mem_cons.1 member with same | behind
      · exact absurd same other
      · exact List.rel_of_pairwise_cons ascend behind
  · intro history
    apply Session.steps_of_result
    rw [Session.outcome_behind]
    exact scanned

end Lexis

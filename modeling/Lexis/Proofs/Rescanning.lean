import Lexis.Session
import Mathlib.Data.List.DropRight

/-!
# A scan forgets the history of its session

* `Step.view`: what a step answers of the result of its scan, if it scans;
* `session.behind steps`: the session behind the steps;
* `session.keep mark outcome`: the session with what a scan leaves behind, beside what it has;
* `session.cleared`: a session on the same text before all steps;
* `session.told`: what the session tells of its last scan.

`rescan_eq` says that a scan on a session leaves there just what the scan of its text leaves behind, and
`step_eq_or_pass` that any other step passes over a character at most. So a scan does the same in every
session on a text, and what a session tells is what its last scan left there: `rescan_forgets_history`.
-/

namespace Lexis

/-- What the step answers of the result of its scan, if it scans. -/
def Step.view : Step → Option (ScanResult → Answer)
  | tokenize => some fun result => .tokens result.tokens
  | scan => some .result
  | _ => none

def Step.scans (s : Step) : Bool := s.view.isSome

/-- What is told of a scan that leaves this behind. -/
def Outcome.told (outcome : Outcome) : List Token × List Diagnostic × Bool :=
  (outcome.tokens, outcome.diagnostics, !outcome.diagnostics.isEmpty)

/-- What a scan with this outcome answers. -/
def Outcome.answer (outcome : Outcome) (view : ScanResult → Answer) : Answer :=
  match outcome.result with
  | .error reason => .failed (.tooLong reason)
  | .ok result => view result

theorem Outcome.lists_of_result {outcome : Outcome} {result : ScanResult}
    (h : outcome.result = .ok result) :
    outcome.tokens = result.tokens ∧ outcome.diagnostics = result.diagnostics := by
  rw [Outcome.result] at h
  cases refusal : outcome.refusal with
  | some reason =>
    rw [refusal] at h
    cases h
  | none =>
    rw [refusal] at h
    cases h
    exact ⟨rfl, rfl⟩

namespace Session

variable (session : Session)

/-- The session behind the steps. -/
def behind (steps : List Step) : Session :=
  steps.foldl (fun current s => (current.step s).2) session

/-- The session with what a scan leaves behind, beside what it has. -/
def keep (mark : Position) (outcome : Outcome) : Session :=
  { session with
    position := outcome.stop
    mark := mark
    tokens := session.tokens ++ outcome.tokens
    diagnostics := session.diagnostics ++ outcome.diagnostics }

/-- A session on the same text before all steps. -/
def cleared : Session :=
  { session with position := .start, mark := .start, tokens := [], diagnostics := [] }

/-- What the scan of the text leaves behind. -/
def outcome : Outcome := session.config.outcome session.file session.source

/-- What the session tells of its last scan. -/
def told : List Token × List Diagnostic × Bool :=
  (session.tokens, session.diagnostics, session.hasErrors)

/-! ### Several steps -/

theorem behind_append (steps more : List Step) :
    session.behind (steps ++ more) = (session.behind steps).behind more := List.foldl_append

theorem behind_concat (steps : List Step) (s : Step) :
    session.behind (steps ++ [s]) = ((session.behind steps).step s).2 := behind_append ..

theorem steps_append (steps more : List Step) :
    session.steps (steps ++ more) = session.steps steps ++ (session.behind steps).steps more := by
  induction steps generalizing session with
  | nil => rfl
  | cons s steps ih => exact congrArg (session.step s :: ·) (ih (session.step s).2)

/-! ### Pieces read on a session -/

theorem keep_passPiece (text : List Char) (mark : Position) (outcome : Outcome) :
    (session.passPiece text).keep mark outcome = session.keep mark outcome := rfl

theorem keep_addToken (token : Token) (mark : Position) (outcome : Outcome) :
    (session.addToken token).keep mark outcome = session.keep mark (outcome.addToken token) := by
  simp only [keep, addToken, Outcome.addToken, List.append_assoc, List.singleton_append]

theorem keep_addDiagnostic (diagnostic : Diagnostic) (mark : Position) (outcome : Outcome) :
    (session.addDiagnostic diagnostic).keep mark outcome =
      session.keep mark (outcome.addDiagnostic diagnostic) := by
  simp only [keep, addDiagnostic, Outcome.addDiagnostic, List.append_assoc, List.singleton_append]

/-- **Pieces read on a session** add to it what a run over them gives, and leave it where the run
stops. -/
theorem readPieces_eq_run (reader : Reader) (pieces : List Piece) :
    ∃ mark, session.readPieces reader pieces =
      ((reader.run session.position pieces).refusal,
        session.keep mark (reader.run session.position pieces)) := by
  induction pieces generalizing session with
  | nil =>
    refine ⟨session.position, ?_⟩
    simp only [readPieces, Reader.run, keep, passPiece, addToken, Position.after_nil, List.append_nil]
  | cons piece pieces ih =>
    simp only [readPieces, Reader.run, passPiece]
    cases reader.read session.position piece with
    | blank =>
      obtain ⟨mark, rest⟩ := ih (session.passPiece piece.text)
      exact ⟨mark, rest⟩
    | token token =>
      obtain ⟨mark, rest⟩ := ih ((session.passPiece piece.text).addToken token)
      rw [keep_addToken, keep_passPiece] at rest
      exact ⟨mark, rest⟩
    | fault diagnostic =>
      obtain ⟨mark, rest⟩ := ih ((session.passPiece piece.text).addDiagnostic diagnostic)
      rw [keep_addDiagnostic, keep_passPiece] at rest
      exact ⟨mark, rest⟩
    | refused reason =>
      refine ⟨session.position, ?_⟩
      simp only [keep, List.append_nil]

theorem readPieces_mark (reader : Reader) (mark : Position) (pieces : List Piece) :
    { session with mark := mark }.readPieces reader pieces = session.readPieces reader pieces := by
  cases pieces <;> rfl

/-! ### One step -/

/-- **A scan on a session** leaves there what the scan of its text leaves behind, and nothing else. -/
theorem rescan_eq (view : ScanResult → Answer) :
    ∃ mark, session.rescan view =
      (session.outcome.answer view, session.restart.keep mark session.outcome) := by
  obtain ⟨mark, read⟩ := session.restart.readPieces_eq_run (session.config.reader session.file)
    (Piece.cut session.source)
  have run : (session.config.reader session.file).run session.restart.position
      (Piece.cut session.source) = session.outcome := rfl
  rw [run] at read
  refine ⟨mark, ?_⟩
  rw [rescan, read, Outcome.answer, Outcome.result]
  cases session.outcome.refusal <;> rfl

theorem rescan_cleared (view : ScanResult → Answer) :
    session.cleared.rescan view = session.rescan view := by
  have same := session.restart.readPieces_mark (session.config.reader session.file) .start
    (Piece.cut session.source)
  rw [rescan, rescan, ← same]
  rfl

theorem step_of_view {s : Step} {view : ScanResult → Answer} (h : s.view = some view) :
    session.step s = session.rescan view := by
  cases s <;> cases h <;> rfl

theorem step_of_result {s : Step} {view : ScanResult → Answer} {result : ScanResult}
    (h : s.view = some view) (reached : session.outcome.result = .ok result) :
    (session.step s).1 = view result ∧ (session.step s).2.tokens = result.tokens ∧
      (session.step s).2.diagnostics = result.diagnostics := by
  obtain ⟨mark, scanned⟩ := session.rescan_eq view
  rw [step_of_view _ h, scanned, Outcome.answer, reached]
  exact ⟨rfl, Outcome.lists_of_result reached⟩

theorem step_of_refusal {s : Step} {view : ScanResult → Answer} {reason : Decimal.TooLong}
    (h : s.view = some view) (stopped : session.outcome.refusal = some reason) :
    (session.step s).1 = .failed (.tooLong reason) ∧
      ∃ mark, (session.step s).2 = session.restart.keep mark session.outcome := by
  obtain ⟨mark, scanned⟩ := session.rescan_eq view
  rw [step_of_view _ h, scanned, Outcome.answer, Outcome.result, stopped]
  exact ⟨rfl, mark, rfl⟩

/-- **A step that is no scan** leaves the session as it was, or passes over the next character. -/
theorem step_eq_or_pass {s : Step} (h : s.view = none) :
    (session.step s).2 = session ∨
      ∃ c, session.rest.head? = some c ∧ (session.step s).2 = session.pass c := by
  cases s with
  | tokenize | scan => cases h
  | advance =>
    rw [step]
    cases rest : session.rest with
    | nil => exact .inl rfl
    | cons c cs => exact .inr ⟨c, rfl, rfl⟩
  | accept c =>
    rw [step]
    split
    · next next => exact .inr ⟨c, next, rfl⟩
    · exact .inl rfl
  | maxInteger =>
    rw [step]
    split <;> exact .inl rfl
  | _ => exact .inl rfl

theorem cleared_step (s : Step) : (session.step s).2.cleared = session.cleared := by
  cases scans : s.view with
  | none =>
    rcases session.step_eq_or_pass scans with same | ⟨c, -, passed⟩
    · rw [same]
    · rw [passed]
      rfl
  | some view =>
    obtain ⟨mark, scanned⟩ := session.rescan_eq view
    rw [step_of_view _ scans, scanned]
    rfl

theorem told_step (s : Step) :
    (session.step s).2.told = if s.scans then session.outcome.told else session.told := by
  cases scans : s.view with
  | none =>
    rw [Step.scans, scans]
    rcases session.step_eq_or_pass scans with same | ⟨c, -, passed⟩
    · rw [same]
      rfl
    · rw [passed]
      rfl
  | some view =>
    obtain ⟨mark, scanned⟩ := session.rescan_eq view
    rw [step_of_view _ scans, scanned, Step.scans, scans]
    rfl

/-! ### Histories -/

theorem cleared_behind (history : List Step) : (session.behind history).cleared = session.cleared := by
  induction history using List.reverseRecOn with
  | nil => rfl
  | append_singleton history s ih => rw [behind_concat, cleared_step, ih]

theorem outcome_behind (history : List Step) : (session.behind history).outcome = session.outcome := by
  show (session.behind history).cleared.outcome = session.cleared.outcome
  rw [cleared_behind]

theorem told_behind (history : List Step) :
    (session.behind history).told =
      (session.behind (history.rdropWhile fun s => !s.scans)).told := by
  induction history using List.reverseRecOn with
  | nil => rfl
  | append_singleton history s ih =>
    cases scans : s.scans with
    | false =>
      rw [List.rdropWhile_concat_pos _ _ _ (by simp [scans]), behind_concat, told_step, scans, ← ih]
      rfl
    | true => rw [List.rdropWhile_concat_neg _ _ _ (by simp [scans])]

/-- What a session tells is what the scan of its text finds, once there was a scan. -/
theorem told_behind_eq (history : List Step) :
    (session.behind history).told =
      if history.any Step.scans then session.outcome.told else session.told := by
  induction history using List.reverseRecOn with
  | nil => rfl
  | append_singleton history s ih =>
    rw [behind_concat, told_step, ih, outcome_behind, List.any_append, List.any_cons, List.any_nil,
      Bool.or_false]
    cases s.scans <;> simp

/-- A scan after other steps goes like one before them, and so do all steps behind it. -/
theorem steps_append_scan {s : Step} {view : ScanResult → Answer} (h : s.view = some view)
    (fresh : session.cleared = session) (history more : List Step) :
    session.steps (history ++ s :: more) = session.steps history ++ session.steps (s :: more) := by
  have same : (session.behind history).step s = session.step s := by
    rw [step_of_view _ h, step_of_view _ h, ← rescan_cleared, cleared_behind, fresh]
  rw [steps_append, steps, steps, same]

end Session

/-- **A scan forgets the history of its session**: whatever was done before, it answers and leaves behind
what it does in a new session on the same text, and so do all steps behind it. What the session tells
between scans is what the last of them left: what the scan of the text finds, and nothing before the
first one. -/
theorem rescan_forgets_history (source : String) (file : Option String) (config : Config)
    (history more : List Step) :
    let fresh := Session.start source file config
    let found := config.outcome (config.fileName file) source.toList
    fresh.steps (history ++ .tokenize :: more) =
        fresh.steps history ++ fresh.steps (.tokenize :: more) ∧
      fresh.steps (history ++ .scan :: more) = fresh.steps history ++ fresh.steps (.scan :: more) ∧
      (fresh.behind history).told = (fresh.behind (history.rdropWhile fun s => !s.scans)).told ∧
      (fresh.behind history).told =
        if history.any Step.scans then
          (found.tokens, found.diagnostics, !found.diagnostics.isEmpty)
        else ([], [], false) := by
  intro fresh found
  refine ⟨?_, ?_, ?_, ?_⟩
  · exact fresh.steps_append_scan rfl rfl history more
  · exact fresh.steps_append_scan rfl rfl history more
  · exact fresh.told_behind history
  · exact fresh.told_behind_eq history

end Lexis

import Lexis.Proofs.Places
import Lexis.Proofs.Rescanning

/-!
# The place of a session

`CursorRules session` says what every step on the place answers and does. `cursor_of_history` says that in
every session, whatever was done there and whatever failed, the place is in the text and counted right,
and the rules hold.

A scan stops behind some of the pieces of the text, so behind a part of the text (`Reader.stop_run`); every
other step passes over the next character at most. Both lead to counted places.
-/

namespace Lexis

theorem Reader.stop_run (reader : Reader) (start : Position) (pieces : List Piece) :
    ∃ before rest, before ++ rest = pieces.flatMap Piece.text ∧
      (reader.run start pieces).stop = start.after before := by
  induction pieces generalizing start with
  | nil => exact ⟨[], [], rfl, rfl⟩
  | cons piece pieces ih =>
    obtain ⟨before, rest, whole, stop⟩ := ih (start.after piece.text)
    have further : ∃ before rest, before ++ rest = (piece :: pieces).flatMap Piece.text ∧
        (reader.run (start.after piece.text) pieces).stop = start.after before := by
      refine ⟨piece.text ++ before, rest, ?_, ?_⟩
      · rw [List.append_assoc, whole, List.flatMap_cons]
      · rw [stop, Position.after_append]
    rw [run]
    cases reader.read start piece with
    | blank | token | fault => exact further
    | refused reason => exact ⟨piece.text, pieces.flatMap Piece.text, rfl, rfl⟩

theorem Config.counted_stop (config : Config) (file : String) (source : List Char) :
    (config.outcome file source).stop.Counted source := by
  obtain ⟨before, rest, whole, stop⟩ :=
    (config.reader file).stop_run .start (Piece.cut source)
  rw [Piece.flatMap_text_cut] at whole
  rw [outcome, stop, ← whole]
  exact Position.counted_after before rest

namespace Session

variable {session : Session}

/-! ### The invariant -/

/-- **One step** leads from a counted place to a counted place. -/
theorem counted_step (h : session.position.Counted session.source) (s : Step) :
    (session.step s).2.position.Counted session.source := by
  cases scans : s.view with
  | none =>
    rcases session.step_eq_or_pass scans with same | ⟨c, next, passed⟩
    · rw [same]
      exact h
    · rw [rest, List.head?_drop] at next
      rw [passed]
      exact h.next next
  | some view =>
    obtain ⟨mark, scanned⟩ := session.rescan_eq view
    rw [step_of_view _ scans, scanned]
    exact Config.counted_stop _ _ _

theorem source_behind (session : Session) (history : List Step) :
    (session.behind history).source = session.source := by
  show (session.behind history).cleared.source = session.cleared.source
  rw [cleared_behind]

/-- **All steps of a run** lead to counted places. -/
theorem counted_behind (h : session.position.Counted session.source) (history : List Step) :
    (session.behind history).position.Counted session.source := by
  induction history using List.reverseRecOn with
  | nil => exact h
  | append_singleton history s ih =>
    rw [← session.source_behind history] at ih ⊢
    rw [behind_concat]
    exact counted_step ih s

/-! ### The steps on the place -/

/-- The next character, if there is one. -/
def next? (session : Session) : Option Char := session.source[session.position.offset]?

/-- **The rules of the place**: what the steps on it answer, and what they change. -/
structure CursorRules (session : Session) : Prop where
  atEnd : (session.step .atEnd).1 =
    .flag (decide (session.position.offset = session.source.length))
  /-- Passing over the next character fails at the end alone. -/
  advance_fails : (session.step .advance).1 = .failed .pastEnd ↔
    session.position.offset = session.source.length
  advance_failed : (session.step .advance).1 = .failed .pastEnd →
    (session.step .advance).2 = session
  /-- Elsewhere the character is the answer, and the place alone moves, by one. -/
  advance : ∀ c, session.next? = some c →
    (session.step .advance).1 = .text c.toString ∧
      (session.step .advance).2.position.offset = session.position.offset + 1 ∧
      (session.step .advance).2 =
        { session with position := (session.step .advance).2.position }
  /-- A character is accepted if it is the next one. -/
  accept : ∀ c, (session.step (.accept c)).1 = .flag (decide (session.next? = some c))
  accepted : ∀ c, session.next? = some c →
    (session.step (.accept c)).2 = (session.step .advance).2
  refused : ∀ c, session.next? ≠ some c → (session.step (.accept c)).2 = session
  peek : ∀ c, session.next? = some c → (session.step .peek).1 = .text c.toString
  /-- The end looks like a character that is not accepted there. -/
  peek_end : session.position.offset = session.source.length →
    (session.step .peek).1 = .text "\x00" ∧ (session.step (.accept '\x00')).1 = .flag false
  /-- All other steps but scans only ask. -/
  asks : ∀ s, s.scans = false → s ≠ .advance → (∀ c, s ≠ .accept c) → (session.step s).2 = session
  /-- What was found stays. -/
  found : ∀ s, s.scans = false →
    (session.step s).2.tokens = session.tokens ∧
      (session.step s).2.diagnostics = session.diagnostics

theorem head?_rest (session : Session) : session.rest.head? = session.next? := List.head?_drop

theorem step_atEnd (session : Session) :
    session.step .atEnd = (.flag session.next?.isNone, session) := by
  rw [step, ← head?_rest]
  cases session.rest <;> rfl

theorem step_peek (session : Session) :
    session.step .peek = (.text (session.next?.getD endMark).toString, session) := by
  rw [step, ← head?_rest]
  cases session.rest <;> rfl

theorem step_advance (session : Session) :
    session.step .advance =
      match session.next? with
      | none => (.failed .pastEnd, session)
      | some c => (.text c.toString, session.pass c) := by
  rw [step, ← head?_rest]
  cases session.rest <;> rfl

theorem step_accept (session : Session) (c : Char) :
    session.step (.accept c) =
      if session.next? = some c then (.flag true, session.pass c) else (.flag false, session) := by
  rw [step, head?_rest]

theorem cursorRules (ends : session.next? = none ↔ session.position.offset = session.source.length) :
    session.CursorRules where
  atEnd := by
    have last : session.next?.isNone =
        decide (session.position.offset = session.source.length) := by
      rw [Bool.eq_iff_iff, Option.isNone_iff_eq_none, ends, decide_eq_true_iff]
    rw [step_atEnd, last]
  advance_fails := by
    rw [step_advance, ← ends]
    cases session.next? <;> simp
  advance_failed := by
    rw [step_advance]
    cases session.next? <;> simp
  advance c next := by
    rw [step_advance, next]
    exact ⟨rfl, Position.offset_next _ c, rfl⟩
  accept c := by
    rw [step_accept]
    split
    · next next => rw [decide_eq_true next]
    · next other => rw [decide_eq_false other]
  accepted c next := by
    rw [step_accept, if_pos next, step_advance, next]
  refused c other := by
    rw [step_accept, if_neg other]
  peek c next := by
    rw [step_peek, next]
    rfl
  peek_end last := by
    rw [step_peek, step_accept, ends.2 last]
    exact ⟨rfl, rfl⟩
  asks s still noAdvance noAccept := by
    cases s with
    | tokenize | scan => cases still
    | advance => exact absurd rfl noAdvance
    | accept c => exact absurd rfl (noAccept c)
    | maxInteger =>
      rw [step]
      split <;> rfl
    | _ => rfl
  found s still := by
    have none : s.view = none := Option.not_isSome_iff_eq_none.1 (by rw [← Step.scans, still]; decide)
    rcases session.step_eq_or_pass none with same | ⟨c, -, passed⟩
    · rw [same]
      exact ⟨rfl, rfl⟩
    · rw [passed]
      exact ⟨rfl, rfl⟩

end Session

/-- **The place of a session is in its text and counted right**, whatever was done there and whatever
failed, and the steps on the place go by its rules. -/
theorem cursor_of_history (source : String) (file : Option String) (config : Config)
    (history : List Step) :
    let session := (Session.start source file config).behind history
    session.position.Counted source.toList ∧ session.CursorRules := by
  intro session
  let fresh := Session.start source file config
  have same : session.source = source.toList := fresh.source_behind history
  have atStart : fresh.position.Counted fresh.source := Position.counted_after [] source.toList
  have counted : session.position.Counted source.toList := Session.counted_behind atStart history
  refine ⟨counted, Session.cursorRules ?_⟩
  have within := counted.within
  rw [Session.next?, same, List.getElem?_eq_none_iff]
  omega

end Lexis

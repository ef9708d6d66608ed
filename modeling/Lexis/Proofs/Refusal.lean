import Lexis.Proofs.Cursor
import Lexis.Proofs.Readings

/-!
# Scans that a numeral stops

* `config.withBits bits pos`: the same settings with another width;
* `result.NumeralAt p`: a numeral is found at the offset `p`, as an integer or as one that is too large;
* `result.FirstNumeral p`: the first numeral is found there.

A width whose limit cannot be written matters for numerals alone: pieces without one give the same under
every width (`Reader.run_withBits`), and the first numeral stops the scan (`Config.outcome_stopped`). For
the steps that scan these are `Session.step_plain` and `Session.step_stopped`, and `scan_stopped_iff` says
by what scans of 32 bits find which of the two it is.
-/

namespace Lexis

/-- The same settings with another width. -/
def Config.withBits (config : Config) (bits : Nat) (pos : 0 < bits) : Config :=
  { config with bits := bits, bits_pos := pos }

namespace ScanResult

/-- A numeral is found at the offset: an integer, or one that is too large. -/
def NumeralAt (result : ScanResult) (p : Int) : Prop :=
  (∃ t ∈ result.tokens, t.kind = .integer ∧ t.location.offset = p) ∨
    ∃ d ∈ result.diagnostics, d.fault = .numericOverflow ∧ d.location.offset = p

def FirstNumeral (result : ScanResult) (p : Int) : Prop :=
  result.NumeralAt p ∧ ∀ q, result.NumeralAt q → p ≤ q

end ScanResult

/-- The piece is a numeral. -/
def Piece.isNumeral : Piece → Bool
  | numeral _ => true
  | _ => false

variable {config : Config} {file : String} {start : Position} {front behind pieces : List Piece}

/-! ### Widths whose limit cannot be written -/

theorem Limit.maxDigits_lt_iff (bits : Nat) :
    Decimal.maxDigits < (Nat.toDigits 10 (greatest bits)).length ↔ maxBits < bits := by
  rw [← Nat.not_le, ← Nat.not_le, Nat.length_toDigits_le_iff (by decide) (by decide), ← Nat.pow_eq,
    greatest_lt_iff]

theorem Config.limit_eq_error (wide : Limit.maxBits < config.bits) : config.limit = .error .number :=
  dif_neg (Nat.not_le.2 wide)

/-! ### Runs without numerals -/

theorem Reader.read_withBits {piece : Piece} (other : piece.isNumeral = false) (bits : Nat)
    (pos : 0 < bits) :
    ((config.withBits bits pos).reader file).read start piece =
      (config.reader file).read start piece := by
  cases piece with
  | numeral digits => cases other
  | _ => rfl

/-- **The width does not matter without numerals.** -/
theorem Reader.run_withBits (plain : ∀ piece ∈ pieces, piece.isNumeral = false) (bits : Nat)
    (pos : 0 < bits) :
    ((config.withBits bits pos).reader file).run start pieces =
      (config.reader file).run start pieces := by
  let wide := (config.withBits bits pos).reader file
  refine wide.run_congr (config.reader file) rfl (fun piece member _ => ?_) start
  exact read_withBits (plain piece member) bits pos

theorem Reader.read_ne_refused (reader : Reader) {piece : Piece} (other : piece.isNumeral = false)
    (reason : Decimal.TooLong) : reader.read start piece ≠ .refused reason := by
  cases piece with
  | numeral digits => cases other
  | _ => exact Reading.noConfusion

/-- The outcome with what was found before. -/
def Outcome.prepend (tokens : List Token) (diagnostics : List Diagnostic) (outcome : Outcome) :
    Outcome :=
  { outcome with
    tokens := tokens ++ outcome.tokens, diagnostics := diagnostics ++ outcome.diagnostics }

/-- **Pieces without numerals do not stop a run**: it goes on with what stands behind them. -/
theorem Reader.run_append (reader : Reader) (start : Position)
    (plain : ∀ piece ∈ front, piece.isNumeral = false) :
    ∃ tokens diagnostics, ∀ behind, reader.run start (front ++ behind) =
      (reader.run (start.after (front.flatMap Piece.text)) behind).prepend tokens diagnostics := by
  induction front generalizing start with
  | nil => exact ⟨[], [], fun _ => rfl⟩
  | cons piece pieces ih =>
    obtain ⟨first, others⟩ := List.forall_mem_cons.1 plain
    obtain ⟨tokens, diagnostics, later⟩ := ih (start.after piece.text) others
    simp only [List.cons_append, run, List.flatMap_cons, Position.after_append, later]
    cases found : reader.read start piece with
    | blank => exact ⟨tokens, diagnostics, fun _ => rfl⟩
    | token token => exact ⟨token :: tokens, diagnostics, fun _ => rfl⟩
    | fault diagnostic => exact ⟨tokens, diagnostic :: diagnostics, fun _ => rfl⟩
    | refused reason => exact absurd found (reader.read_ne_refused first reason)

/-! ### The first numeral -/

theorem Piece.eq_numeral {piece : Piece} (h : piece.isNumeral = true) :
    ∃ digits, piece = .numeral digits := by
  cases piece with
  | numeral digits => exact ⟨digits, rfl⟩
  | _ => cases h

theorem Piece.exists_first_numeral (pieces : List Piece) :
    (∀ piece ∈ pieces, piece.isNumeral = false) ∨
      ∃ front digits behind, pieces = front ++ .numeral digits :: behind ∧
        ∀ piece ∈ front, piece.isNumeral = false := by
  cases found : pieces.find? isNumeral with
  | none =>
    refine .inl fun piece member => ?_
    have other := List.find?_eq_none.1 found piece member
    exact Bool.eq_false_iff.2 other
  | some piece =>
    obtain ⟨numeral, front, behind, split, plain⟩ := List.find?_eq_some_iff_append.1 found
    obtain ⟨digits, rfl⟩ := eq_numeral numeral
    refine .inr ⟨front, digits, behind, split, fun piece member => ?_⟩
    have other := plain piece member
    rwa [Bool.not_eq_true'] at other

theorem Piece.length_le_of_first {first : List Piece} {digits others : List Char}
    {rest : List Piece} (plain : ∀ piece ∈ first, piece.isNumeral = false)
    (h : first ++ .numeral digits :: rest = front ++ .numeral others :: behind) :
    (first.flatMap text).length ≤ (front.flatMap text).length := by
  rcases List.append_eq_append_iff.1 h with ⟨more, rfl, -⟩ | ⟨more, rfl, shape⟩
  · rw [List.flatMap_append, List.length_append]
    omega
  · cases more with
    | nil => rw [List.append_nil]
    | cons piece more =>
      obtain ⟨rfl, -⟩ := List.cons.inj shape
      cases plain _ (List.mem_append_right _ List.mem_cons_self)

theorem Gives.exists_numeral {before : List Char} {piece : Piece} {tokens : List Token}
    {diagnostics : List Diagnostic} (h : Gives config file before piece tokens diagnostics)
    (found : (∃ t ∈ tokens, t.kind = .integer) ∨ ∃ d ∈ diagnostics, d.fault = .numericOverflow) :
    ∃ digits, piece = .numeral digits := by
  cases h with
  | integer digits | overflow digits => exact ⟨digits, rfl⟩
  | _ => simp [Piece.tokenBehind, Diagnostic.unterminatedString, Diagnostic.unexpectedCharacter] at found

/-- **Numerals are found where numerals stand.** -/
theorem Readings.numeralAt_iff {tokens : List Token} {diagnostics : List Diagnostic}
    (h : Readings config file [] pieces tokens diagnostics) (source : List Char) (p : Int) :
    ScanResult.NumeralAt ⟨tokens ++ [eofBehind file source], diagnostics⟩ p ↔
      ∃ front digits behind, pieces = front ++ .numeral digits :: behind ∧
        (front.flatMap Piece.text).length = p := by
  constructor
  · rintro (⟨t, member, kind, offset⟩ | ⟨d, member, fault, offset⟩)
    · rcases List.mem_append.1 member with body | last
      · obtain ⟨front, piece, behind, split, gives⟩ := h.of_mem_token body
        obtain ⟨digits, rfl⟩ := gives.exists_numeral (.inl ⟨t, List.mem_cons_self, kind⟩)
        rw [gives.token_location.1] at offset
        exact ⟨front, digits, behind, split, offset⟩
      · rw [List.mem_singleton.1 last] at kind
        cases kind
    · obtain ⟨front, piece, behind, split, gives⟩ := h.of_mem_diagnostic member
      obtain ⟨digits, rfl⟩ := gives.exists_numeral (.inr ⟨d, List.mem_cons_self, fault⟩)
      rw [gives.diagnostic_location] at offset
      exact ⟨front, digits, behind, split, offset⟩
  · rintro ⟨front, digits, behind, rfl, offset⟩
    obtain ⟨ts, us, ds, es, rfl, rfl, -, readings⟩ := h.of_append
    cases readings with
    | step gives _ =>
      cases gives with
      | integer =>
        exact .inl ⟨_, List.mem_append_left _
          (List.mem_append_right ts (List.mem_append_left _ List.mem_cons_self)), rfl, offset⟩
      | overflow =>
        exact .inr ⟨_,
          List.mem_append_right ds (List.mem_append_left _ List.mem_cons_self), rfl, offset⟩

theorem scan_numeralAt (h : config.bits ≤ Limit.maxBits) (file : Option String) (source : String) :
    ∃ result, scan source file config = .ok result ∧ ∀ p, result.NumeralAt p ↔
      ∃ front digits behind, Piece.cut source.toList = front ++ .numeral digits :: behind ∧
        (front.flatMap Piece.text).length = p := by
  obtain ⟨tokens, diagnostics, scanned, readings⟩ := scan_readings h file source
  exact ⟨_, scanned, readings.numeralAt_iff source.toList⟩

/-! ### The outcome of a scan -/

theorem Config.run_numeral (wide : Limit.maxBits < config.bits) (start : Position)
    (digits : List Char) (behind : List Piece) :
    (config.reader file).run start (.numeral digits :: behind) =
      ⟨[], [], start.after digits, some .number⟩ := by
  have refuses : (config.reader file).read start (.numeral digits) = .refused .number := by
    rw [Reader.read, Reader.numeral, reader, limit_eq_error wide]
  rw [Reader.run, refuses]
  rfl

/-- **The first numeral stops a scan** whose limit cannot be written. What stands before it gives what it
gives alone, under every width. -/
theorem Config.outcome_stopped (wide : Limit.maxBits < config.bits) (file : String)
    {source digits : List Char} (split : Piece.cut source = front ++ .numeral digits :: behind)
    (plain : ∀ piece ∈ front, piece.isNumeral = false) :
    ∃ tokens diagnostics, (∀ t ∈ tokens, t.kind ≠ .eof) ∧
      (∀ bits pos,
        (config.withBits bits pos).outcome file (source.take (front.flatMap Piece.text).length) =
          ⟨tokens ++ [eofBehind file (front.flatMap Piece.text)], diagnostics,
            Position.start.after (front.flatMap Piece.text), Option.none⟩) ∧
      config.outcome file source =
        ⟨tokens, diagnostics, Position.start.after (front.flatMap Piece.text ++ digits),
          some .number⟩ := by
  have fits : Fitting (front ++ .numeral digits :: behind) := split ▸ Piece.fitting_cut source
  have narrow : (config.withBits 1 Nat.one_pos).bits ≤ Limit.maxBits := (by decide : 1 ≤ 14284)
  obtain ⟨tokens, diagnostics, readings, run⟩ := run_readings narrow file fits.of_append_left []
  rw [Reader.run_withBits plain, Position.after_nil, List.nil_append] at run
  -- what the wide run gives over the first pieces is what it gives if nothing stands behind them
  obtain ⟨ts, ds, later⟩ := (config.reader file).run_append .start plain
  have alone := later []
  rw [List.append_nil, run, Reader.run, Reader.eof_after] at alone
  obtain ⟨sameTokens, sameDiagnostics, -, -⟩ := Outcome.mk.inj alone
  obtain ⟨rfl, -⟩ := List.append_inj' sameTokens rfl
  obtain rfl : diagnostics = ds := sameDiagnostics.trans (List.append_nil ds)
  refine ⟨tokens, diagnostics, fun t member => ?_, fun bits pos => ?_, ?_⟩
  · obtain ⟨front, piece, behind, -, gives⟩ := readings.of_mem_token member
    exact gives.token_location.2.2
  · rw [outcome, Piece.cut_take split, Reader.run_withBits plain, run]
  · rw [outcome, split, later, run_numeral wide, Position.after_append]
    simp only [Outcome.prepend, List.append_nil]

/-! ### Sessions -/

/-- **What a scan leaves behind that the numeral at the offset `p` stops**: what the text before the
numeral gives, without the token of its end, and the place behind the whole run of digits. -/
structure Session.StoppedAt (session : Session) (front : ScanResult) (p : Nat) : Prop where
  tokens : session.tokens = front.tokens.filter fun t => t.kind ≠ .eof
  diagnostics : session.diagnostics = front.diagnostics
  counted : session.position.Counted session.source
  offset : session.position.offset = p + ((session.source.drop p).takeWhile Char.isDigit).length

theorem Step.view_ne_failed {s : Step} {view : ScanResult → Answer} (h : s.view = some view)
    (result : ScanResult) (error : StepError) : view result ≠ .failed error := by
  cases s <;> cases h <;> exact Answer.noConfusion

theorem filter_ne_eof {tokens : List Token} (h : ∀ t ∈ tokens, t.kind ≠ .eof) (file : String)
    (before : List Char) :
    (tokens ++ [eofBehind file before]).filter (fun t => t.kind ≠ .eof) = tokens := by
  rw [List.filter_append, List.filter_eq_self.2 fun t member => decide_eq_true (h t member)]
  exact List.append_nil tokens

theorem Session.stoppedAt_keep {session : Session} {digits : List Char} {tokens : List Token}
    (split : Piece.cut session.source = front ++ .numeral digits :: behind)
    (kinds : ∀ t ∈ tokens, t.kind ≠ .eof) (diagnostics : List Diagnostic) (mark : Position)
    (file : String) :
    (session.restart.keep mark ⟨tokens, diagnostics,
        Position.start.after (front.flatMap Piece.text ++ digits), some .number⟩).StoppedAt
      ⟨tokens ++ [eofBehind file (front.flatMap Piece.text)], diagnostics⟩
      (front.flatMap Piece.text).length where
  tokens := (filter_ne_eof kinds file _).symm
  diagnostics := rfl
  counted := by
    obtain ⟨whole, rule⟩ := Piece.rule_of_cut split
    have counted := Position.counted_after (front.flatMap Piece.text ++ digits)
      (behind.flatMap Piece.text)
    rw [List.append_assoc] at counted
    show (Position.start.after _).Counted session.source
    rw [← whole]
    exact counted
  offset := by
    obtain ⟨whole, rule⟩ := Piece.rule_of_cut split
    have run : (session.source.drop (front.flatMap Piece.text).length).takeWhile Char.isDigit =
        digits := by
      rw [← whole, List.drop_left]
      exact takeWhile_run rule.of_numeral.1 rule.of_numeral.2
    show (Position.start.after _).offset = _ + ((session.source.drop _).takeWhile _).length
    rw [run, Position.offset_after, List.length_append]
    exact Nat.zero_add _

section

variable {source : String} {s : Step} {view : ScanResult → Answer} {result : ScanResult}

theorem Session.step_plain (plain : ∀ piece ∈ Piece.cut source.toList, piece.isNumeral = false)
    {name : Option String} {bits : Nat} {pos : 0 < bits}
    (scanned : scan source name (config.withBits bits pos) = .ok result)
    (scans : s.view = some view) :
    let done := (Session.start source name config).step s
    done.1 = view result ∧ done.2.tokens = result.tokens ∧
      done.2.diagnostics = result.diagnostics ∧
      ∀ bits pos, scan source name (config.withBits bits pos) = .ok result := by
  intro done
  let fresh := Session.start source name config
  have same : ∀ bits pos, scan source name (config.withBits bits pos) = fresh.outcome.result :=
    fun bits pos => congrArg Outcome.result (Reader.run_withBits plain bits pos)
  have reached : fresh.outcome.result = .ok result := (same _ _).symm.trans scanned
  obtain ⟨answered, tokens, diagnostics⟩ := fresh.step_of_result scans reached
  exact ⟨answered, tokens, diagnostics, fun bits pos => (same bits pos).trans reached⟩

theorem Session.step_stopped (wide : Limit.maxBits < config.bits) {digits : List Char}
    (split : Piece.cut source.toList = front ++ .numeral digits :: behind)
    (plain : ∀ piece ∈ front, piece.isNumeral = false) (name : Option String)
    (scans : s.view = some view) :
    let done := (Session.start source name config).step s
    done.1 = .failed (.tooLong .number) ∧ ∃ before : ScanResult,
      (∀ bits pos, scan (String.ofList (source.toList.take (front.flatMap Piece.text).length)) name
        (config.withBits bits pos) = .ok before) ∧
      done.2.StoppedAt before (front.flatMap Piece.text).length := by
  intro done
  let fresh := Session.start source name config
  obtain ⟨tokens, diagnostics, kinds, before, stopped⟩ :=
    Config.outcome_stopped wide (config.fileName name) split plain
  have outcome : fresh.outcome = ⟨tokens, diagnostics,
      Position.start.after (front.flatMap Piece.text ++ digits), some .number⟩ := stopped
  obtain ⟨failed, mark, left⟩ := fresh.step_of_refusal scans (congrArg Outcome.refusal outcome)
  let eof := eofBehind (config.fileName name) (front.flatMap Piece.text)
  refine ⟨failed, ⟨tokens ++ [eof], diagnostics⟩, fun bits pos => ?_, ?_⟩
  · rw [scan, String.toList_ofList]
    exact congrArg Outcome.result (before bits pos)
  · rw [left, outcome]
    exact stoppedAt_keep split kinds diagnostics mark _

end

/-- **A scan under a width whose limit cannot be written** fails just if there is a numeral in the text,
which is to say if a scan of 32 bits finds one. It is stopped at the first one then; otherwise it gives
what scans of all widths give. -/
theorem scan_stopped_iff (config : Config) (wide : 14285 ≤ config.bits) (file : Option String)
    (source : String) {s : Step} {view : ScanResult → Answer} (scans : s.view = some view) :
    let done := (Session.start source file config).step s
    Decimal.maxDigits < (Nat.toDigits 10 config.maxInteger).length ∧
      ∃ narrow, scan source file (config.withBits 32 (by decide)) = .ok narrow ∧
        (done.1 = .failed (.tooLong .number) ↔ ∃ p, narrow.NumeralAt p) ∧
        (done.1 = .failed (.tooLong .number) →
          ∃ (p : Nat) (front : ScanResult), narrow.FirstNumeral p ∧
            (∀ bits pos, scan (String.ofList (source.toList.take p)) file
              (config.withBits bits pos) = .ok front) ∧
            done.2.StoppedAt front p) ∧
        (done.1 ≠ .failed (.tooLong .number) →
          done.1 = view narrow ∧ done.2.tokens = narrow.tokens ∧
            done.2.diagnostics = narrow.diagnostics ∧
            ∀ bits pos, scan source file (config.withBits bits pos) = .ok narrow) := by
  intro done
  refine ⟨(Limit.maxDigits_lt_iff config.bits).2 wide, ?_⟩
  have short : (config.withBits 32 (by decide)).bits ≤ Limit.maxBits := (by decide : 32 ≤ 14284)
  obtain ⟨narrow, scanned, numeralAt⟩ := scan_numeralAt short file source
  refine ⟨narrow, scanned, ?_⟩
  rcases Piece.exists_first_numeral (Piece.cut source.toList) with
    plain | ⟨first, digits, behind, split, plain⟩
  · obtain ⟨answered, reached⟩ := Session.step_plain plain scanned scans
    have fine : done.1 ≠ .failed (.tooLong .number) :=
      fun failed => Step.view_ne_failed scans narrow _ (answered.symm.trans failed)
    have nowhere : ¬ ∃ p, narrow.NumeralAt p := by
      rintro ⟨p, found⟩
      obtain ⟨front, digits, behind, split, -⟩ := (numeralAt p).1 found
      rw [split] at plain
      cases plain _ (List.mem_append_right front List.mem_cons_self)
    exact ⟨⟨fun failed => absurd failed fine, fun found => absurd found nowhere⟩,
      fun failed => absurd failed fine, fun _ => ⟨answered, reached⟩⟩
  · obtain ⟨failed, before, scannedBefore, stopped⟩ :=
      Session.step_stopped wide split plain file scans
    have found := (numeralAt _).2 ⟨first, digits, behind, split, rfl⟩
    refine ⟨⟨fun _ => ⟨_, found⟩, fun _ => failed⟩, fun _ => ?_, fun other => absurd failed other⟩
    refine ⟨_, before, ⟨found, fun q other => ?_⟩, scannedBefore, stopped⟩
    obtain ⟨front, others, rest, split', rfl⟩ := (numeralAt q).1 other
    exact Int.ofNat_le.2 (Piece.length_le_of_first plain (split.symm.trans split'))

/-- The standard settings with the least width whose limit cannot be written. -/
def Config.wide : Config := Config.standard.withBits 14285 (by decide)

/-- The digit in the string does not stop the scan, and the stray character is reported before the first
numeral does. -/
theorem scan_stopped_iff_wide :
    14285 ≤ Config.wide.bits ∧ Step.scan.view = some .result ∧
      ((Session.start "a1 '2\n' @ 34b 5" none Config.wide).step .scan).1 =
        .failed (.tooLong .number) ∧
      Decimal.maxDigits < (Nat.toDigits 10 Config.wide.maxInteger).length ∧
      ∃ narrow,
        scan "a1 '2\n' @ 34b 5" none (Config.wide.withBits 32 (by decide)) = .ok narrow ∧
        ∃ (p : Nat) (front : ScanResult), narrow.FirstNumeral p ∧
          (∀ bits pos, scan (String.ofList ("a1 '2\n' @ 34b 5".toList.take p)) none
            (Config.wide.withBits bits pos) = .ok front) ∧
          ((Session.start "a1 '2\n' @ 34b 5" none Config.wide).step .scan).2.StoppedAt front p := by
  obtain ⟨digits, narrow, scanned, -, stopped, -⟩ :=
    scan_stopped_iff Config.wide (by decide) none "a1 '2\n' @ 34b 5"
      (rfl : Step.scan.view = some .result)
  have failed : ((Session.start "a1 '2\n' @ 34b 5" none Config.wide).step .scan).1 =
      .failed (.tooLong .number) := by
    decide +kernel
  exact ⟨by decide, rfl, failed, digits, narrow, scanned, stopped failed⟩

end Lexis

import Lexis.Proofs.Boundaries
import Lexis.Proofs.Numerals
import Lexis.Proofs.Places
import Lexis.Scan

/-!
# What the pieces of a text give

* `Gives config file before piece tokens diagnostics`: what a piece that stands behind `before` gives,
  at most one token or one diagnostic;
* `Readings config file before pieces tokens diagnostics`: what the pieces give one after the other.

`scan_readings` says that a scan under a config whose limit can be written reaches the end of the text
and returns what the pieces of the text give, with the token of the end behind it. `Readings.unique`
makes it the only such result, and `of_mem_token` and `of_mem_diagnostic` go back from a token or a
diagnostic to its piece.
-/

namespace Lexis

/-- The token of a piece that stands behind `before`. -/
def Piece.tokenBehind (file : String) (before : List Char) (piece : Piece) (kind : Kind)
    (lexeme : List Char) (payload : Option Literal) : Token where
  kind := kind
  lexeme := String.ofList lexeme
  payload := payload
  location := .behind file before
  stop := (before ++ piece.text).length

/-- The token of the end behind a whole text. -/
def eofBehind (file : String) (before : List Char) : Token where
  kind := .eof
  lexeme := ""
  payload := none
  location := .behind file before
  stop := before.length

section

variable (config : Config) (file : String)

/-- **What a piece gives** that stands behind `before`. -/
inductive Gives (before : List Char) : Piece → List Token → List Diagnostic → Prop
  | mark (m) : Gives before (.mark m)
      [(Piece.mark m).tokenBehind file before (.mark m) m.spelling none] []
  | comment (body) : Gives before (.comment body) [] []
  | quoted (q body) : Gives before (.quoted q body)
      [(Piece.quoted q body).tokenBehind file before .string body
        (some (.text (String.ofList body)))] []
  | unclosed (q body) : Gives before (.unclosed q body) []
      [.unterminatedString q.char.toString (.behind file before)]
  | space : Gives before .space [] []
  | newline : Gives before .newline [] []
  | integer (digits) : Decimal.value digits ≤ config.maxInteger → Gives before (.numeral digits)
      [(Piece.numeral digits).tokenBehind file before .integer digits
        (some (.integer (Decimal.value digits)))] []
  | overflow (digits) : config.maxInteger < Decimal.value digits → Gives before (.numeral digits) []
      [.numericOverflow (String.ofList digits) config.maxInteger (.behind file before)]
  | keyword (spelling keyword) : config.keywords.get? (String.ofList spelling) = some keyword →
      Gives before (.word spelling)
        [(Piece.word spelling).tokenBehind file before (.keyword keyword) spelling
          (some (.text (String.ofList spelling)))] []
  | identifier (spelling) : config.keywords.get? (String.ofList spelling) = none →
      Gives before (.word spelling)
        [(Piece.word spelling).tokenBehind file before .identifier spelling none] []
  | stray (c) : Gives before (.stray c) [] [.unexpectedCharacter c (.behind file before)]

/-- **What pieces give** one after the other, the first of which stands behind `before`. -/
inductive Readings : List Char → List Piece → List Token → List Diagnostic → Prop
  | done (before) : Readings before [] [] []
  | step {before piece pieces ts ds tokens diagnostics} : Gives config file before piece ts ds →
      Readings (before ++ piece.text) pieces tokens diagnostics →
      Readings before (piece :: pieces) (ts ++ tokens) (ds ++ diagnostics)

end

variable {config : Config} {file : String} {before : List Char} {piece : Piece}
  {pieces : List Piece} {tokens : List Token} {diagnostics : List Diagnostic}

/-- The piece only separates others. -/
def Piece.isBlank : Piece → Bool
  | comment _ | space | newline => true
  | _ => false

/-! ### Nothing, one token or one diagnostic -/

theorem Gives.outcome (h : Gives config file before piece tokens diagnostics) :
    (tokens = [] ∧ diagnostics = [] ∧ piece.isBlank = true) ∨
    (∃ t, tokens = [t] ∧ diagnostics = [] ∧ t.location = .behind file before ∧
      t.stop = (before ++ piece.text).length ∧ t.kind ≠ .eof) ∨
    (∃ d, tokens = [] ∧ diagnostics = [d] ∧ d.location = .behind file before) := by
  cases h with
  | comment | space | newline => exact .inl ⟨rfl, rfl, rfl⟩
  | unclosed | overflow | stray => exact .inr (.inr ⟨_, rfl, rfl, rfl⟩)
  | _ => exact .inr (.inl ⟨_, rfl, rfl, rfl, rfl, Kind.noConfusion⟩)

theorem Gives.token_location {t : Token}
    (h : Gives config file before piece [t] []) :
    t.location = .behind file before ∧ t.stop = (before ++ piece.text).length ∧ t.kind ≠ .eof := by
  rcases h.outcome with ⟨none, -, -⟩ | ⟨u, one, -, facts⟩ | ⟨d, -, one, -⟩
  · cases none
  · cases one
    exact facts
  · cases one

theorem Gives.diagnostic_location {d : Diagnostic}
    (h : Gives config file before piece [] [d]) :
    d.location = .behind file before := by
  rcases h.outcome with ⟨-, none, -⟩ | ⟨t, one, -⟩ | ⟨e, -, one, location⟩
  · cases none
  · cases one
  · cases one
    exact location

theorem Gives.clean_or_fault (h : Gives config file before piece tokens diagnostics) :
    diagnostics = [] ∨ ∃ d, tokens = [] ∧ diagnostics = [d] := by
  rcases h.outcome with ⟨-, none, -⟩ | ⟨t, -, none, -⟩ | ⟨d, noToken, one, -⟩
  · exact .inl none
  · exact .inl none
  · exact .inr ⟨d, noToken, one⟩

/-! ### Uniqueness -/

theorem Gives.unique {ts : List Token} {ds : List Diagnostic}
    (h : Gives config file before piece tokens diagnostics)
    (h' : Gives config file before piece ts ds) : tokens = ts ∧ diagnostics = ds := by
  cases h with
  | integer digits small =>
    cases h' with
    | integer => exact ⟨rfl, rfl⟩
    | overflow _ large => omega
  | overflow digits large =>
    cases h' with
    | integer _ small => omega
    | overflow => exact ⟨rfl, rfl⟩
  | keyword spelling keyword found =>
    cases h' with
    | keyword _ other found' =>
      obtain rfl := Option.some.inj (found.symm.trans found')
      exact ⟨rfl, rfl⟩
    | identifier _ missing => cases found.symm.trans missing
  | identifier spelling missing =>
    cases h' with
    | keyword _ other found => cases found.symm.trans missing
    | identifier => exact ⟨rfl, rfl⟩
  | _ =>
    cases h'
    exact ⟨rfl, rfl⟩

theorem Readings.unique {ts : List Token} {ds : List Diagnostic}
    (h : Readings config file before pieces tokens diagnostics)
    (h' : Readings config file before pieces ts ds) : tokens = ts ∧ diagnostics = ds := by
  induction h generalizing ts ds with
  | done before =>
    cases h'
    exact ⟨rfl, rfl⟩
  | step gives _ ih =>
    cases h' with
    | step gives' readings =>
      obtain ⟨rfl, rfl⟩ := gives.unique gives'
      obtain ⟨rfl, rfl⟩ := ih readings
      exact ⟨rfl, rfl⟩

/-! ### Elsewhere in a text -/

/-- The token with the place of a piece that stands behind `other`. -/
def Token.movedBehind (file : String) (other : List Char) (piece : Piece) (t : Token) : Token :=
  { t with location := .behind file other, stop := (other ++ piece.text).length }

def Diagnostic.movedBehind (file : String) (other : List Char) (d : Diagnostic) : Diagnostic :=
  { d with location := .behind file other }

/-- **What a piece gives differs in the place alone**, wherever it stands. -/
theorem Gives.move (h : Gives config file before piece tokens diagnostics) (other : List Char) :
    Gives config file other piece (tokens.map (Token.movedBehind file other piece))
      (diagnostics.map (Diagnostic.movedBehind file other)) := by
  cases h with
  | mark m => exact .mark m
  | comment body => exact .comment body
  | quoted q body => exact .quoted q body
  | unclosed q body => exact .unclosed q body
  | space => exact .space
  | newline => exact .newline
  | integer digits small => exact .integer digits small
  | overflow digits large => exact .overflow digits large
  | keyword spelling keyword found => exact .keyword spelling keyword found
  | identifier spelling missing => exact .identifier spelling missing
  | stray c => exact .stray c

theorem Gives.map {other : List Char} {onToken : Token → Token}
    {onDiagnostic : Diagnostic → Diagnostic}
    (h : Gives config file before piece tokens diagnostics)
    (token : ∀ t : Token, t.location = .behind file before →
      t.stop = (before ++ piece.text).length → t.movedBehind file other piece = onToken t)
    (diagnostic : ∀ d : Diagnostic, d.location = .behind file before →
      d.movedBehind file other = onDiagnostic d) :
    Gives config file other piece (tokens.map onToken) (diagnostics.map onDiagnostic) := by
  have moved := h.move other
  rcases h.outcome with ⟨rfl, rfl, -⟩ | ⟨t, rfl, rfl, location, stop, -⟩ | ⟨d, rfl, rfl, location⟩
  · exact moved
  · rwa [List.map_singleton, token t location stop] at moved
  · rwa [List.map_singleton, diagnostic d location] at moved

/-- What a piece gives depends on its place alone. -/
theorem Gives.congr {other : List Char} (h : Gives config file before piece tokens diagnostics)
    (same : feeds other = feeds before) : Gives config file other piece tokens diagnostics := by
  have place : Location.behind file other = .behind file before := Location.behind_congr same file
  have length : (other ++ piece.text).length = (before ++ piece.text).length := by
    rw [List.length_append, List.length_append, length_eq_of_feeds same]
  have moved : Gives config file other piece (tokens.map id) (diagnostics.map id) := by
    refine h.map (fun t location stop => ?_) fun d location => ?_
    · rw [Token.movedBehind, place, length, ← location, ← stop]
      rfl
    · rw [Diagnostic.movedBehind, place, ← location]
      rfl
  rwa [List.map_id, List.map_id] at moved

theorem eofBehind_congr {other : List Char} (same : feeds other = feeds before) (file : String) :
    eofBehind file other = eofBehind file before := by
  rw [eofBehind, eofBehind, Location.behind_congr same, length_eq_of_feeds same]

/-! ### Parts of the pieces -/

theorem Readings.append {others : List Piece} {ts : List Token} {ds : List Diagnostic}
    (h : Readings config file before pieces tokens diagnostics)
    (h' : Readings config file (before ++ pieces.flatMap Piece.text) others ts ds) :
    Readings config file before (pieces ++ others) (tokens ++ ts) (diagnostics ++ ds) := by
  induction h with
  | done before =>
    rw [List.flatMap_nil, List.append_nil] at h'
    exact h'
  | step gives _ ih =>
    rw [List.flatMap_cons, ← List.append_assoc] at h'
    rw [List.append_assoc, List.append_assoc]
    exact .step gives (ih h')

theorem Gives.of_isBlank (blank : piece.isBlank = true) (before : List Char) :
    Gives config file before piece [] [] := by
  cases piece with
  | comment body => exact .comment body
  | space => exact .space
  | newline => exact .newline
  | _ => cases blank

theorem Readings.of_isBlank (blank : ∀ piece ∈ pieces, piece.isBlank = true) (before : List Char) :
    Readings config file before pieces [] [] := by
  induction pieces generalizing before with
  | nil => exact .done before
  | cons piece pieces ih =>
    obtain ⟨first, others⟩ := List.forall_mem_cons.1 blank
    exact .step (.of_isBlank first before) (ih others _)

theorem Readings.of_append {others : List Piece}
    (h : Readings config file before (pieces ++ others) tokens diagnostics) :
    ∃ ts us ds es, tokens = ts ++ us ∧ diagnostics = ds ++ es ∧
      Readings config file before pieces ts ds ∧
      Readings config file (before ++ pieces.flatMap Piece.text) others us es := by
  induction pieces generalizing before tokens diagnostics with
  | nil =>
    refine ⟨[], tokens, [], diagnostics, rfl, rfl, .done before, ?_⟩
    rwa [List.flatMap_nil, List.append_nil]
  | cons piece pieces ih =>
    cases h with
    | @step _ _ _ first faults _ _ gives readings =>
      obtain ⟨ts, us, ds, es, rfl, rfl, front, behind⟩ := ih readings
      refine ⟨first ++ ts, us, faults ++ ds, es, ?_, ?_, .step gives front, ?_⟩
      · rw [List.append_assoc]
      · rw [List.append_assoc]
      · rwa [List.flatMap_cons, ← List.append_assoc]

theorem Readings.gives_at {front behind : List Piece}
    (h : Readings config file before (front ++ piece :: behind) tokens diagnostics) :
    ∃ ts ds, Gives config file (before ++ front.flatMap Piece.text) piece ts ds ∧ ts ⊆ tokens ∧
      ds ⊆ diagnostics := by
  obtain ⟨ts, us, ds, es, rfl, rfl, -, readings⟩ := h.of_append
  cases readings with
  | step gives _ =>
    refine ⟨_, _, gives, fun t ht => ?_, fun d hd => ?_⟩
    · exact List.mem_append_right _ (List.mem_append_left _ ht)
    · exact List.mem_append_right _ (List.mem_append_left _ hd)

theorem Readings.gives_of_mem (h : Readings config file before pieces tokens diagnostics)
    (member : piece ∈ pieces) :
    ∃ other ts ds, Gives config file other piece ts ds ∧ ts ⊆ tokens ∧ ds ⊆ diagnostics := by
  obtain ⟨front, behind, rfl⟩ := List.append_of_mem member
  exact ⟨_, h.gives_at⟩

/-! ### Back to the pieces -/

theorem Readings.of_mem {α : Type} (collect : List Token → List Diagnostic → List α)
    (collect_nil : collect [] [] = [])
    (collect_append : ∀ ts tokens ds diagnostics,
      collect (ts ++ tokens) (ds ++ diagnostics) = collect ts ds ++ collect tokens diagnostics)
    (h : Readings config file before pieces tokens diagnostics) {a : α}
    (ha : a ∈ collect tokens diagnostics) :
    ∃ front piece behind ts ds, pieces = front ++ piece :: behind ∧
      Gives config file (before ++ front.flatMap Piece.text) piece ts ds ∧ a ∈ collect ts ds := by
  induction h with
  | done before =>
    rw [collect_nil] at ha
    cases ha
  | @step before piece pieces ts ds _ _ gives _ ih =>
    rw [collect_append] at ha
    rcases List.mem_append.1 ha with first | later
    · refine ⟨[], piece, pieces, ts, ds, rfl, ?_, first⟩
      rwa [List.flatMap_nil, List.append_nil]
    · obtain ⟨front, other, behind, ts, ds, rfl, given, member⟩ := ih later
      refine ⟨piece :: front, other, behind, ts, ds, rfl, ?_, member⟩
      rwa [List.flatMap_cons, ← List.append_assoc]

theorem Readings.of_mem_token (h : Readings config file before pieces tokens diagnostics)
    {t : Token} (ht : t ∈ tokens) :
    ∃ front piece behind, pieces = front ++ piece :: behind ∧
      Gives config file (before ++ front.flatMap Piece.text) piece [t] [] := by
  obtain ⟨front, piece, behind, ts, ds, split, gives, member⟩ :=
    h.of_mem (fun ts _ => ts) rfl (fun _ _ _ _ => rfl) ht
  refine ⟨front, piece, behind, split, ?_⟩
  rcases gives.outcome with ⟨rfl, -, -⟩ | ⟨u, rfl, rfl, -⟩ | ⟨d, rfl, -, -⟩
  · cases member
  · rwa [List.mem_singleton.1 member]
  · cases member

theorem Readings.of_mem_diagnostic (h : Readings config file before pieces tokens diagnostics)
    {d : Diagnostic} (hd : d ∈ diagnostics) :
    ∃ front piece behind, pieces = front ++ piece :: behind ∧
      Gives config file (before ++ front.flatMap Piece.text) piece [] [d] := by
  obtain ⟨front, piece, behind, ts, ds, split, gives, member⟩ :=
    h.of_mem (fun _ ds => ds) rfl (fun _ _ _ _ => rfl) hd
  refine ⟨front, piece, behind, split, ?_⟩
  rcases gives.clean_or_fault with rfl | ⟨e, rfl, rfl⟩
  · cases member
  · rwa [List.mem_singleton.1 member]

theorem Readings.of_mem_token_cut {source : List Char}
    (h : Readings config file [] (Piece.cut source) tokens diagnostics) {t : Token} (ht : t ∈ tokens) :
    ∃ front piece behind, front ++ (piece.text ++ behind) = source ∧
      Rule piece.text behind piece ∧ Gives config file front piece [t] [] := by
  obtain ⟨front, piece, behind, split, gives⟩ := h.of_mem_token ht
  obtain ⟨whole, rule⟩ := Piece.rule_of_cut split
  exact ⟨_, piece, _, whole, rule, gives⟩

theorem Readings.of_mem_diagnostic_cut {source : List Char}
    (h : Readings config file [] (Piece.cut source) tokens diagnostics) {d : Diagnostic}
    (hd : d ∈ diagnostics) :
    ∃ front piece behind, front ++ (piece.text ++ behind) = source ∧
      Rule piece.text behind piece ∧ Gives config file front piece [] [d] := by
  obtain ⟨front, piece, behind, split, gives⟩ := h.of_mem_diagnostic hd
  obtain ⟨whole, rule⟩ := Piece.rule_of_cut split
  exact ⟨_, piece, _, whole, rule, gives⟩

/-! ### A reader gives what the pieces give -/

theorem Reader.token_after (reader : Reader) (before : List Char) (piece : Piece) (kind : Kind)
    (lexeme : List Char) (payload : Option Literal) :
    reader.token (Position.start.after before) ((Position.start.after before).after piece.text)
        kind lexeme payload = piece.tokenBehind reader.file before kind lexeme payload := by
  rw [Reader.token, Position.locate_after, ← Position.after_append, Position.offset_after]
  simp [Piece.tokenBehind, Position.start]

theorem Reader.eof_after (reader : Reader) (before : List Char) :
    reader.eof (Position.start.after before) = eofBehind reader.file before := by
  rw [Reader.eof, Reader.token, Position.locate_after, Position.offset_after]
  simp [eofBehind, Position.start]

theorem Config.limit_eq_ok (config : Config) (h : config.bits ≤ Limit.maxBits) :
    ∃ limit, config.limit = .ok limit ∧ limit.value = config.maxInteger := by
  unfold limit Limit.ofBits
  rw [dif_pos h]
  exact ⟨_, rfl, rfl⟩

/-- The reading is what the piece gives. A refusal gives nothing, not even a diagnostic. -/
def Reading.Agrees (config : Config) (file : String) (before : List Char) (piece : Piece) :
    Reading → Prop
  | .blank => Gives config file before piece [] []
  | .token t => Gives config file before piece [t] []
  | .fault d => Gives config file before piece [] [d]
  | .refused _ => False

theorem Config.numeral_agrees (h : config.bits ≤ Limit.maxBits) (file : String)
    (before : List Char) {digits : List Char} (all : digits.all Char.isDigit = true) :
    ((config.reader file).numeral (Position.start.after before)
      ((Position.start.after before).after (Piece.numeral digits).text) digits).Agrees config file
        before (.numeral digits) := by
  obtain ⟨limit, written, value⟩ := config.limit_eq_ok h
  have reads := limit.read_eq_of_digits all
  rw [value] at reads
  by_cases small : Decimal.value digits ≤ config.maxInteger
  · rw [if_pos small] at reads
    simp only [Reader.numeral, reader, written, reads, Reader.token_after]
    exact Gives.integer digits small
  · rw [if_neg small] at reads
    simp only [Reader.numeral, reader, written, reads, value, Position.locate_after]
    exact Gives.overflow digits (Nat.lt_of_not_le small)

/-- **Each piece is read as what it gives.** -/
theorem Config.read_agrees (h : config.bits ≤ Limit.maxBits) (file : String) (before : List Char)
    {rest : List Char} (rule : Rule piece.text rest piece) :
    ((config.reader file).read (Position.start.after before) piece).Agrees config file before
      piece := by
  cases piece with
  | mark m =>
    simp only [Reader.read, Reader.token_after]
    exact Gives.mark m
  | comment body => exact Gives.comment body
  | quoted q body =>
    simp only [Reader.read, Reader.token_after]
    exact Gives.quoted q body
  | unclosed q body =>
    simp only [Reader.read, Position.locate_after]
    exact Gives.unclosed q body
  | space => exact Gives.space
  | newline => exact Gives.newline
  | numeral digits => exact numeral_agrees h file before rule.of_numeral.1
  | word spelling =>
    cases found : config.keywords.get? (String.ofList spelling) with
    | some keyword =>
      simp only [Reader.read, Reader.word, reader, found, Reader.token_after]
      exact Gives.keyword spelling keyword found
    | none =>
      simp only [Reader.read, Reader.word, reader, found, Reader.token_after]
      exact Gives.identifier spelling found
  | stray c =>
    simp only [Reader.read, Position.locate_after]
    exact Gives.stray c

theorem Config.run_readings (h : config.bits ≤ Limit.maxBits) (file : String)
    (fits : Fitting pieces) (before : List Char) :
    ∃ tokens diagnostics, Readings config file before pieces tokens diagnostics ∧
      (config.reader file).run (Position.start.after before) pieces =
        ⟨tokens ++ [eofBehind file (before ++ pieces.flatMap Piece.text)], diagnostics,
          Position.start.after (before ++ pieces.flatMap Piece.text), none⟩ := by
  induction pieces generalizing before with
  | nil =>
    refine ⟨[], [], .done before, ?_⟩
    rw [Reader.run, Reader.eof_after, List.flatMap_nil, List.append_nil]
    rfl
  | cons piece pieces ih =>
    obtain ⟨rule, fits⟩ := fits
    obtain ⟨tokens, diagnostics, readings, run⟩ := ih fits (before ++ piece.text)
    have agrees := read_agrees h file before rule
    rw [List.append_assoc, ← List.flatMap_cons] at run
    rw [Reader.run, ← Position.after_append, run]
    cases reading : (config.reader file).read (Position.start.after before) piece with
    | blank =>
      rw [reading] at agrees
      exact ⟨tokens, diagnostics, .step agrees readings, rfl⟩
    | token token =>
      rw [reading] at agrees
      exact ⟨token :: tokens, diagnostics, .step agrees readings, rfl⟩
    | fault diagnostic =>
      rw [reading] at agrees
      exact ⟨tokens, diagnostic :: diagnostics, .step agrees readings, rfl⟩
    | refused reason =>
      rw [reading] at agrees
      exact agrees.elim

theorem Reader.run_congr (reader other : Reader) (file : reader.file = other.file)
    (reads : ∀ piece ∈ pieces, ∀ start, reader.read start piece = other.read start piece)
    (start : Position) : reader.run start pieces = other.run start pieces := by
  induction pieces generalizing start with
  | nil => rw [run, run, eof, eof, token, token, file]
  | cons piece pieces ih =>
    obtain ⟨first, others⟩ := List.forall_mem_cons.1 reads
    rw [run, run, first, ih others]

/-- **A scan returns what the pieces of its text give**, and the token of the end. -/
theorem scan_readings (h : config.bits ≤ Limit.maxBits) (file : Option String) (source : String) :
    ∃ tokens diagnostics,
      scan source file config =
        .ok ⟨tokens ++ [eofBehind (config.fileName file) source.toList], diagnostics⟩ ∧
      Readings config (config.fileName file) [] (Piece.cut source.toList) tokens diagnostics := by
  obtain ⟨tokens, diagnostics, readings, run⟩ :=
    Config.run_readings h (config.fileName file) (Piece.fitting_cut source.toList) []
  refine ⟨tokens, diagnostics, ?_, readings⟩
  rw [Position.after_nil, List.nil_append, Piece.flatMap_text_cut] at run
  rw [scan, Config.outcome, run]
  rfl

theorem scan_eq_of_readings (h : config.bits ≤ Limit.maxBits) {file : Option String}
    {source : String}
    (readings : Readings config (config.fileName file) [] (Piece.cut source.toList) tokens
      diagnostics) :
    scan source file config =
      .ok ⟨tokens ++ [eofBehind (config.fileName file) source.toList], diagnostics⟩ := by
  obtain ⟨ts, ds, scanned, given⟩ := scan_readings h file source
  obtain ⟨rfl, rfl⟩ := given.unique readings
  exact scanned

end Lexis

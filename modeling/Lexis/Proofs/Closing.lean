import Lexis.Proofs.Lookahead

/-!
# A string that is left open

* `ReportsOpen source tokens diagnostics faults d q p`: the diagnostic is about a string that the quote
  `q` at the offset `p` opens and nothing closes;
* `closedString source p location`: the token of that string once its quote is written behind the source.

A string that is not closed is the last piece of its text (`Piece.cut_of_unclosed`), so a text has at most
one. Written behind the text, its quote makes it a closed string and touches no other piece
(`Piece.cut_close`). `scan_close_string` says what this means for scans: the suggestion of the diagnostic
takes away this diagnostic alone, and gives the token that was missing.
-/

namespace Lexis

/-- **The diagnostic reports a string that is left open.** It is the last one, behind `faults`, and the
tokens end before the quote that opens the string. -/
structure ReportsOpen (source : List Char) (tokens : List Token) (diagnostics faults : List Diagnostic)
    (d : Diagnostic) (q : Quote) (p : Nat) : Prop where
  place : d.location.offset = p
  quote : source[p]? = some q.char
  last : diagnostics = faults ++ [d]
  before : ∀ t ∈ tokens, t.stop ≤ p
  /-- No such quote stands behind the one that opens the string. -/
  unclosed : q.char ∉ source.drop (p + 1)
  suggestion : d.suggestions = some ["Add a closing " ++ q.char.toString ++ " quote"]

/-- The token of the string that starts at the offset `p`, with one more quote behind the source. -/
def closedString (source : List Char) (p : Nat) (location : Location) : Token where
  kind := .string
  lexeme := String.ofList (source.drop (p + 1))
  payload := some (.text (String.ofList (source.drop (p + 1))))
  location := location
  stop := source.length + 1

/-- The token one character further on its line. -/
def Token.moveRight (t : Token) : Token :=
  { t with
    location := { t.location with column := t.location.column + 1, offset := t.location.offset + 1 }
    stop := t.stop + 1 }

/-! ### The piece of an open string -/

section

variable {source body : List Char} {front behind : List Piece} {q : Quote}

theorem Piece.cut_of_unclosed (split : cut source = front ++ unclosed q body :: behind) :
    behind = [] ∧ q.char ∉ body ∧ front.flatMap text ++ q.char :: body = source := by
  obtain ⟨whole, rule⟩ := rule_of_cut split
  obtain ⟨inside, nothing⟩ := rule.of_unclosed
  rw [nothing, List.append_nil] at whole
  refine ⟨Decidable.byContradiction fun more => ?_, inside, whole⟩
  have shorter := length_flatMap_lt (split.trans (List.append_cons ..)) more
  rw [List.flatMap_append, List.flatMap_singleton, whole] at shorter
  exact Nat.lt_irrefl _ shorter

/-- **The quote behind the text closes the string**, and no other piece changes. -/
theorem Piece.cut_close (split : cut source = front ++ [unclosed q body]) :
    cut (source ++ [q.char]) = front ++ [quoted q body] := by
  obtain ⟨-, inside, -⟩ := cut_of_unclosed split
  have rule : Rule (quoted q body).text [] (quoted q body) := .regular (.quoted inside)
  have alone := cut_append rule
  rw [List.append_nil, cut] at alone
  rw [cut_extend split]
  exact congrArg (front ++ ·) alone

end

/-! ### What the pieces give -/

section

variable {config : Config} {file : String} {source before : List Char} {piece : Piece}
  {pieces front : List Piece} {tokens : List Token} {diagnostics faults : List Diagnostic}

theorem Gives.exists_unclosed {d : Diagnostic} (h : Gives config file before piece tokens [d])
    (fault : d.fault = .unterminatedLiteral) :
    ∃ q body, piece = .unclosed q body ∧
      d = .unterminatedString q.char.toString (.behind file before) := by
  cases h with
  | unclosed q body => exact ⟨q, body, rfl, rfl⟩
  | overflow | stray => cases fault

theorem Readings.of_unterminated {d : Diagnostic}
    (h : Readings config file [] (Piece.cut source) tokens diagnostics) (member : d ∈ diagnostics)
    (fault : d.fault = .unterminatedLiteral) :
    ∃ front q body faults, Piece.cut source = front ++ [.unclosed q body] ∧
      diagnostics = faults ++ [d] ∧
      d = .unterminatedString q.char.toString (.behind file (front.flatMap Piece.text)) ∧
      Readings config file [] front tokens faults := by
  obtain ⟨front, piece, behind, split, gives⟩ := h.of_mem_diagnostic member
  obtain ⟨q, body, rfl, rfl⟩ := gives.exists_unclosed fault
  obtain ⟨rfl, -, -⟩ := Piece.cut_of_unclosed split
  rw [split] at h
  obtain ⟨ts, us, faults, ds, rfl, rfl, first, last⟩ := h.of_append
  cases last with
  | step given done =>
    cases done
    cases given
    refine ⟨front, q, body, faults, split, rfl, rfl, ?_⟩
    rw [List.append_nil, List.append_nil]
    exact first

theorem Readings.closed_before_last {last : Piece} (h : Readings config file [] front tokens faults)
    (split : Piece.cut source = front ++ [last]) :
    ∀ e ∈ faults, ¬ e.fault = .unterminatedLiteral := by
  intro e member fault
  obtain ⟨first, piece, behind, rfl, gives⟩ := h.of_mem_diagnostic member
  obtain ⟨q, body, rfl, -⟩ := gives.exists_unclosed fault
  rw [List.append_assoc, List.cons_append] at split
  have nothing := (Piece.cut_of_unclosed split).1
  exact List.append_ne_nil_of_right_ne_nil behind (List.cons_ne_nil last []) nothing

/-- **At most one string is left open.** -/
theorem Readings.countP_unterminated_le
    (h : Readings config file [] (Piece.cut source) tokens diagnostics) :
    diagnostics.countP (·.fault = .unterminatedLiteral) ≤ 1 := by
  by_cases left : ∃ d ∈ diagnostics, d.fault = .unterminatedLiteral
  · obtain ⟨d, member, fault⟩ := left
    obtain ⟨front, q, body, faults, split, rfl, -, readings⟩ := h.of_unterminated member fault
    have others : faults.countP (·.fault = .unterminatedLiteral) = 0 :=
      List.countP_eq_zero.2 fun e he => by simpa using readings.closed_before_last split e he
    rw [List.countP_append, others, Nat.zero_add]
    exact List.countP_le_length
  · have none : diagnostics.countP (·.fault = .unterminatedLiteral) = 0 :=
      List.countP_eq_zero.2 fun e he fault => left ⟨e, he, of_decide_eq_true fault⟩
    exact none ▸ Nat.zero_le 1

theorem Readings.stop_le (h : Readings config file before pieces tokens diagnostics) :
    ∀ t ∈ tokens, t.stop ≤ (before ++ pieces.flatMap Piece.text).length := by
  intro t member
  obtain ⟨front, piece, behind, rfl, gives⟩ := h.of_mem_token member
  rw [gives.token_location.2.1]
  simp only [List.flatMap_append, List.flatMap_cons, List.length_append]
  omega

end

/-! ### The scan of the closed string -/

theorem eofBehind_concat (file : String) (source : List Char) {c : Char} (plain : c ≠ '\n') :
    eofBehind file (source ++ [c]) = (eofBehind file source).moveRight := by
  simp [eofBehind, Token.moveRight, Location.behind, lineRest_concat, plain]

theorem tokenBehind_closed {source front body : List Char} {q : Quote}
    (whole : front ++ q.char :: body = source) (file : String) :
    (Piece.quoted q body).tokenBehind file front .string body (some (.text (String.ofList body))) =
      closedString source front.length (.behind file front) := by
  have rest : source.drop (front.length + 1) = body := by
    rw [← whole, ← List.drop_drop, List.drop_left, List.drop_one, List.tail_cons]
  have stop : (front ++ (Piece.quoted q body).text).length = source.length + 1 := by
    rw [← whole]
    simp only [Piece.text, List.length_append, List.length_cons, List.length_nil]
    omega
  rw [Piece.tokenBehind, closedString, rest, stop]
  rfl

/-- **A string that is left open is reported once, last, and with its repair**: the quote that the
suggestion names, written behind the source, takes away this diagnostic, gives the token of the string
behind all others, and moves the end by one character. -/
theorem scan_close_string (config : Config) (h : config.bits ≤ Limit.maxBits) (file : Option String)
    (source : String) :
    ∃ tokens eof diagnostics, scan source file config = .ok ⟨tokens ++ [eof], diagnostics⟩ ∧
      eof.kind = .eof ∧ (∀ t ∈ tokens, t.kind ≠ .eof) ∧
      diagnostics.countP (·.fault = .unterminatedLiteral) ≤ 1 ∧
      ∀ d ∈ diagnostics, d.fault = .unterminatedLiteral → ∃ q p faults,
        ReportsOpen source.toList tokens diagnostics faults d q p ∧
        scan (source ++ q.char.toString) file config =
          .ok ⟨tokens ++ [closedString source.toList p d.location, eof.moveRight], faults⟩ := by
  obtain ⟨tokens, diagnostics, scanned, readings⟩ := scan_readings h file source
  refine ⟨tokens, _, diagnostics, scanned, rfl, fun t member => ?_, readings.countP_unterminated_le,
    fun d member fault => ?_⟩
  · obtain ⟨front, piece, behind, -, gives⟩ := readings.of_mem_token member
    exact gives.token_location.2.2
  · obtain ⟨front, q, body, faults, split, listed, rfl, first⟩ :=
      readings.of_unterminated member fault
    obtain ⟨-, inside, whole⟩ := Piece.cut_of_unclosed split
    have opened : source.toList.drop (front.flatMap Piece.text).length = q.char :: body := by
      rw [← whole, List.drop_left]
    refine ⟨q, (front.flatMap Piece.text).length, faults, ?_, ?_⟩
    · refine ⟨rfl, ?_, listed, first.stop_le, ?_, rfl⟩
      · rw [← List.head?_drop, opened, List.head?_cons]
      · rwa [← List.drop_drop, opened, List.drop_one, List.tail_cons]
    · have closed : (source ++ q.char.toString).toList = source.toList ++ [q.char] := by
        rw [String.toList_append, Char.toString_eq_singleton, String.toList_singleton]
      -- the pieces before the string are read as they were, and then the string
      have string := first.append (.step (.quoted q body) (.done _))
      rw [← Piece.cut_close split, ← closed] at string
      rw [scan_eq_of_readings h string, closed, eofBehind_concat _ _ q.char_ne_newline,
        List.nil_append, tokenBehind_closed whole]
      simp only [List.append_nil, List.append_assoc, List.singleton_append,
        Diagnostic.unterminatedString]

/-- The open string goes on behind the line feed, with a closed one and a stray character before it. -/
theorem scan_close_string_standard :
    Config.standard.bits ≤ Limit.maxBits ∧
      ∃ tokens eof diagnostics d q p faults,
        scan "@ 'a' \"b\n'//" none Config.standard = .ok ⟨tokens ++ [eof], diagnostics⟩ ∧
        d ∈ diagnostics ∧ d.fault = .unterminatedLiteral ∧
        ReportsOpen "@ 'a' \"b\n'//".toList tokens diagnostics faults d q p ∧
        scan ("@ 'a' \"b\n'//" ++ q.char.toString) none Config.standard =
          .ok ⟨tokens ++ [closedString "@ 'a' \"b\n'//".toList p d.location, eof.moveRight],
            faults⟩ := by
  obtain ⟨tokens, eof, diagnostics, scanned, -, -, -, repair⟩ :=
    scan_close_string Config.standard (by decide) none "@ 'a' \"b\n'//"
  have listed : (scan "@ 'a' \"b\n'//" none Config.standard).toOption.map
      (fun result => result.diagnostics.map Diagnostic.fault) =
        some [.unexpectedCharacter, .unterminatedLiteral] := by
    decide +kernel
  rw [scanned] at listed
  have faults : diagnostics.map Diagnostic.fault = [.unexpectedCharacter, .unterminatedLiteral] :=
    Option.some.inj listed
  have one : Fault.unterminatedLiteral ∈ diagnostics.map Diagnostic.fault := faults ▸ by decide
  obtain ⟨d, member, fault⟩ := List.mem_map.1 one
  obtain ⟨q, p, others, reports, closed⟩ := repair d member fault
  exact ⟨by decide, tokens, eof, diagnostics, d, q, p, others, scanned, member, fault, reports,
    closed⟩

end Lexis

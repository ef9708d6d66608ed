import Lexis.Proofs.Readings

/-!
# The extents of tokens and diagnostics

A token carries its span. A diagnostic does not, but its fault says how far it reaches:
`Diagnostic.span source` is the one character, the run of digits, or the rest of the source that it is
about. `Gives.token_span` and `Gives.diagnostic_span` say that both are the place of the piece.
-/

namespace Lexis

/-- The characters of the source that a diagnostic of its scan is about. -/
def Diagnostic.span (source : List Char) (d : Diagnostic) : Int × Int :=
  match d.fault with
  | .unexpectedCharacter => (d.location.offset, d.location.offset + 1)
  | .unterminatedLiteral => (d.location.offset, source.length)
  | .numericOverflow =>
    (d.location.offset,
      d.location.offset + ((source.drop d.location.offset.toNat).takeWhile Char.isDigit).length)

theorem Diagnostic.span_fst (source : List Char) (d : Diagnostic) :
    (d.span source).1 = d.location.offset := by
  unfold span
  split <;> rfl

/-- The span of a piece that stands behind `before`. -/
def Piece.spanBehind (before : List Char) (piece : Piece) : Int × Int :=
  (before.length, (before ++ piece.text).length)

/-- The characters of a span. -/
def slice (source : List Char) (span : Int × Int) : List Char :=
  (source.take span.2.toNat).drop span.1.toNat

variable {config : Config} {file : String} {before rest : List Char} {piece : Piece}

theorem slice_eq {source : List Char} {start stop : Int} (before text rest : List Char)
    (whole : before ++ (text ++ rest) = source) (starts : start = before.length)
    (stops : stop = (before ++ text).length) : slice source (start, stop) = text := by
  rw [slice, starts, stops, Int.toNat_natCast, Int.toNat_natCast, ← whole, ← List.append_assoc,
    List.take_left, List.drop_left]

theorem Gives.token_span {t : Token} (h : Gives config file before piece [t] []) :
    t.span = piece.spanBehind before := by
  rw [Token.span, h.token_location.1, h.token_location.2.1]
  rfl

theorem Gives.diagnostic_span {d : Diagnostic} (h : Gives config file before piece [] [d])
    (rule : Rule piece.text rest piece) :
    d.span (before ++ (piece.text ++ rest)) = piece.spanBehind before := by
  cases h with
  | unclosed q body =>
    rw [rule.of_unclosed.2, List.append_nil]
    rfl
  | overflow digits _ =>
    have run : (digits ++ rest).takeWhile Char.isDigit = digits :=
      takeWhile_run rule.of_numeral.1 rule.of_numeral.2
    have start : (Location.behind file before).offset = before.length := rfl
    simp only [Diagnostic.span, Diagnostic.numericOverflow, start, Int.toNat_natCast, List.drop_left,
      Piece.text, run, Piece.spanBehind, List.length_append, Int.natCast_add]
  | stray c =>
    simp only [Diagnostic.span, Diagnostic.unexpectedCharacter, Piece.spanBehind, Piece.text,
      List.length_append, List.length_singleton]
    rfl

/-- **All that a piece of a source gives ends where the piece ends.** -/
theorem Gives.ends {source : List Char} {front behind : List Piece} {tokens : List Token}
    {diagnostics : List Diagnostic} (split : Piece.cut source = front ++ piece :: behind)
    (h : Gives config file (front.flatMap Piece.text) piece tokens diagnostics) :
    (∀ t ∈ tokens, t.stop = ((front ++ [piece]).flatMap Piece.text).length) ∧
      ∀ d ∈ diagnostics, (d.span source).2 = ((front ++ [piece]).flatMap Piece.text).length := by
  have text : (front ++ [piece]).flatMap Piece.text = front.flatMap Piece.text ++ piece.text := by
    rw [List.flatMap_append, List.flatMap_singleton]
  rw [text]
  rcases h.outcome with ⟨rfl, rfl, -⟩ | ⟨t, rfl, rfl, -, stop, -⟩ | ⟨d, rfl, rfl, -⟩
  · exact ⟨List.forall_mem_nil _, List.forall_mem_nil _⟩
  · exact ⟨List.forall_mem_singleton.2 stop, List.forall_mem_nil _⟩
  · obtain ⟨whole, rule⟩ := Piece.rule_of_cut split
    have spanned := h.diagnostic_span rule
    rw [whole] at spanned
    exact ⟨List.forall_mem_nil _, List.forall_mem_singleton.2 (congrArg Prod.snd spanned)⟩

theorem Readings.le_span_fst {pieces : List Piece} {tokens : List Token}
    {diagnostics : List Diagnostic} (h : Readings config file before pieces tokens diagnostics)
    (source : List Char) :
    ∀ s ∈ diagnostics.map (Diagnostic.span source), (before.length : Int) ≤ s.1 := by
  intro s hs
  obtain ⟨d, hd, rfl⟩ := List.mem_map.1 hs
  obtain ⟨front, piece, behind, -, gives⟩ := h.of_mem_diagnostic hd
  have offset : (Location.behind file (before ++ front.flatMap Piece.text)).offset =
      (before ++ front.flatMap Piece.text).length := rfl
  rw [Diagnostic.span_fst, gives.diagnostic_location, offset, List.length_append]
  omega

end Lexis

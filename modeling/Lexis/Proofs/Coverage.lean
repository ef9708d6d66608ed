import Lexis.Proofs.Extents

/-!
# Nothing is lost or counted twice

* `Blank gap rest`: the gap before `rest` is spaces, line feeds and comments that run up to a line feed
  or to the end;
* `Tiled p text spans`: the text, which starts at the offset `p`, is the texts of the spans in their
  order with blank gaps before, between and behind them;
* `Covered source tokens eof diagnostics`: the spans of tokens and diagnostics tile the source, and the
  tokens show its characters.

`scan_covers` says that every scan covers its source.
-/

namespace Lexis

/-- A gap before `rest`: spaces, line feeds and whole comments. -/
inductive Blank : List Char → List Char → Prop
  | nil {rest} : Blank [] rest
  | space {gap rest} : Blank gap rest → Blank (' ' :: gap) rest
  | newline {gap rest} : Blank gap rest → Blank ('\n' :: gap) rest
  | comment {body gap rest} : '\n' ∉ body → gap ++ rest = [] ∨ (gap ++ rest).head? = some '\n' →
      Blank gap rest → Blank ('/' :: '/' :: body ++ gap) rest

/-- The text from the offset `p` on is blank gaps and the texts of the spans, in turn. -/
inductive Tiled : Nat → List Char → List (Int × Int) → Prop
  | done {p gap} : Blank gap [] → Tiled p gap []
  | span {p start stop gap text rest spans} : Blank gap (text ++ rest) → text ≠ [] →
      start = p + gap.length → stop = start + text.length → Tiled stop rest spans →
      Tiled p (gap ++ (text ++ rest)) (((start : Nat), (stop : Nat)) :: spans)

/-- **The tokens and diagnostics cover the source.** -/
structure Covered (source : List Char) (tokens : List Token) (eof : Token)
    (diagnostics : List Diagnostic) : Prop where
  /-- Spans and blank gaps make up the source, in the order of the offsets. -/
  tiled : ∃ spans, Tiled 0 source spans ∧
    spans.Perm (tokens.map Token.span ++ diagnostics.map (Diagnostic.span source))
  inside : ∀ s ∈ tokens.map Token.span ++ diagnostics.map (Diagnostic.span source),
    0 ≤ s.1 ∧ s.1 < s.2 ∧ s.2 ≤ source.length
  disjoint : (tokens.map Token.span ++ diagnostics.map (Diagnostic.span source)).Pairwise
    fun a b => a.2 ≤ b.1 ∨ b.2 ≤ a.1
  tokens_ascend : (tokens ++ [eof]).Pairwise (·.location.offset < ·.location.offset)
  diagnostics_ascend : diagnostics.Pairwise (·.location.offset < ·.location.offset)
  eof_kind : eof.kind = .eof
  eof_only : ∀ t ∈ tokens, t.kind ≠ .eof
  eof_span : eof.span = ((source.length : Int), (source.length : Int))
  eof_lexeme : eof.lexeme = ""
  /-- The lexeme of a token, that of the end included, is the text of its span, unless it is a string. -/
  lexeme : ∀ t ∈ tokens ++ [eof], t.kind ≠ .string → t.lexeme = String.ofList (slice source t.span)
  /-- A string stands between two quotes, and its lexeme is what stands between them. -/
  contents : ∀ t ∈ tokens, t.kind = .string →
    ∃ q : Quote, t.location.offset + 1 < t.stop ∧
      slice source (t.location.offset, t.location.offset + 1) = [q.char] ∧
      slice source (t.stop - 1, t.stop) = [q.char] ∧
      t.lexeme = String.ofList (slice source (t.location.offset + 1, t.stop - 1))

/-! ### Tiles -/

variable {config : Config} {file : String} {before : List Char} {piece : Piece}
  {pieces : List Piece} {tokens : List Token} {diagnostics : List Diagnostic}

theorem Blank.of_rule {gap rest : List Char} (h : Blank gap rest)
    (rule : Rule piece.text (gap ++ rest) piece) (blank : piece.isBlank = true) :
    Blank (piece.text ++ gap) rest := by
  cases piece with
  | space => exact .space h
  | newline => exact .newline h
  | comment body => exact .comment rule.of_comment.1 rule.of_comment.2 h
  | _ => cases blank

theorem Tiled.prepend {rest : List Char} {spans : List (Int × Int)}
    (h : Tiled (before ++ piece.text).length rest spans) (rule : Rule piece.text rest piece)
    (blank : piece.isBlank = true) : Tiled before.length (piece.text ++ rest) spans := by
  cases h with
  | done gap =>
    refine .done (gap.of_rule ?_ blank)
    rwa [List.append_nil]
  | @span _ start stop gap text rest spans free nonempty starts stops tiled =>
    rw [← List.append_assoc]
    refine .span (free.of_rule rule blank) nonempty ?_ stops tiled
    rw [starts, List.length_append, List.length_append, Nat.add_assoc]

theorem Tiled.bounds {p : Nat} {text : List Char} {spans : List (Int × Int)}
    (h : Tiled p text spans) :
    ∀ s ∈ spans, (p : Int) ≤ s.1 ∧ s.1 < s.2 ∧ s.2 ≤ (p + text.length : Nat) := by
  induction h with
  | done _ => simp
  | @span p start stop gap text rest spans _ nonempty starts stops _ ih =>
    have positive := List.length_pos_iff.2 nonempty
    intro s hs
    simp only [List.length_append]
    rcases List.mem_cons.1 hs with rfl | later
    · dsimp only
      omega
    · have := ih s later
      omega

theorem Tiled.pairwise {p : Nat} {text : List Char} {spans : List (Int × Int)}
    (h : Tiled p text spans) : spans.Pairwise fun a b => a.2 ≤ b.1 := by
  induction h with
  | done _ => exact .nil
  | span _ _ _ _ tiled ih => exact .cons (fun s hs => (tiled.bounds s hs).1) ih

theorem Tiled.ascending {p : Nat} {text : List Char} {spans : List (Int × Int)}
    (h : Tiled p text spans) : spans.Pairwise fun a b => a.1 < b.1 := by
  refine h.pairwise.imp_of_mem fun {a b} ha _ le => ?_
  have := h.bounds a ha
  omega

/-- **The spans of what pieces give tile their text**, and each kind comes in their order. -/
theorem Readings.tiled (h : Readings config file before pieces tokens diagnostics)
    (fits : Fitting pieces) {source : List Char}
    (whole : before ++ pieces.flatMap Piece.text = source) :
    ∃ spans, Tiled before.length (pieces.flatMap Piece.text) spans ∧
      spans.Perm (tokens.map Token.span ++ diagnostics.map (Diagnostic.span source)) ∧
      (tokens.map Token.span).Sublist spans ∧
      (diagnostics.map (Diagnostic.span source)).Sublist spans := by
  induction h with
  | done before => exact ⟨[], .done .nil, .nil, .slnil, .slnil⟩
  | @step before piece pieces ts ds _ _ gives _ ih =>
    obtain ⟨rule, fits⟩ := fits
    rw [List.flatMap_cons] at whole ⊢
    obtain ⟨spans, tiled, perm, inTokens, inDiagnostics⟩ :=
      ih fits (by rwa [List.append_assoc])
    -- a piece that gives something is a tile of its own, without a gap
    have tile : Tiled before.length (piece.text ++ pieces.flatMap Piece.text)
        (piece.spanBehind before :: spans) := by
      show Tiled before.length ([] ++ (piece.text ++ pieces.flatMap Piece.text)) _
      exact .span .nil rule.text_ne_nil rfl List.length_append tiled
    rcases gives.outcome with ⟨rfl, rfl, blank⟩ | ⟨t, rfl, rfl, -⟩ | ⟨d, rfl, rfl, -⟩
    · exact ⟨spans, tiled.prepend rule blank, perm, inTokens, inDiagnostics⟩
    · refine ⟨_, tile, ?_, ?_, inDiagnostics.cons _⟩
      · rw [← gives.token_span]
        exact perm.cons _
      · rw [← gives.token_span]
        exact inTokens.cons_cons _
    · have spanned := gives.diagnostic_span rule
      rw [whole] at spanned
      refine ⟨_, tile, ?_, inTokens.cons _, ?_⟩
      · rw [← spanned]
        exact (perm.cons _).trans List.perm_middle.symm
      · rw [← spanned]
        exact inDiagnostics.cons_cons _

/-! ### Lexemes -/

theorem Gives.lexeme {t : Token} (h : Gives config file before piece [t] []) :
    (t.kind ≠ .string → t.lexeme = String.ofList piece.text) ∧
      (t.kind = .string → ∃ q body, piece = .quoted q body ∧ t.lexeme = String.ofList body) := by
  cases h with
  | quoted q body => exact ⟨fun other => absurd rfl other, fun _ => ⟨q, body, rfl, rfl⟩⟩
  | _ => exact ⟨fun _ => rfl, fun other => by cases other⟩

theorem Gives.lexeme_slice {t : Token} {rest source : List Char}
    (h : Gives config file before piece [t] []) (whole : before ++ (piece.text ++ rest) = source)
    (other : t.kind ≠ .string) : t.lexeme = String.ofList (slice source t.span) := by
  rw [h.lexeme.1 other, h.token_span, Piece.spanBehind, slice_eq _ _ _ whole rfl rfl]

theorem Gives.contents {t : Token} {rest source : List Char}
    (h : Gives config file before piece [t] []) (whole : before ++ (piece.text ++ rest) = source)
    (string : t.kind = .string) :
    ∃ q : Quote, t.location.offset + 1 < t.stop ∧
      slice source (t.location.offset, t.location.offset + 1) = [q.char] ∧
      slice source (t.stop - 1, t.stop) = [q.char] ∧
      t.lexeme = String.ofList (slice source (t.location.offset + 1, t.stop - 1)) := by
  obtain ⟨q, body, rfl, lexeme⟩ := h.lexeme.2 string
  have start : t.location.offset = before.length := by
    rw [h.token_location.1]
    rfl
  have stop : t.stop = before.length + (body.length + 2) := by
    rw [h.token_location.2.1]
    simp [Piece.text, Int.add_assoc]
  simp only [Piece.text] at whole
  have opening : slice source (t.location.offset, t.location.offset + 1) = [q.char] :=
    slice_eq before [q.char] (body ++ [q.char] ++ rest) whole start (by simp [start])
  have inside : slice source (t.location.offset + 1, t.stop - 1) = body :=
    slice_eq (before ++ [q.char]) body ([q.char] ++ rest) (by simp [← whole]) (by simp [start])
      (by simp [stop]; omega)
  have closing : slice source (t.stop - 1, t.stop) = [q.char] :=
    slice_eq (before ++ q.char :: body) [q.char] rest (by simp [← whole]) (by simp [stop]; omega)
      (by simp [stop]; omega)
  refine ⟨q, by omega, opening, closing, ?_⟩
  rw [inside, lexeme]

/-! ### Scans -/

namespace Readings

variable {source : List Char}

theorem tiled_cut (h : Readings config file [] (Piece.cut source) tokens diagnostics) :
    ∃ spans, Tiled 0 source spans ∧
      spans.Perm (tokens.map Token.span ++ diagnostics.map (Diagnostic.span source)) ∧
      (tokens.map Token.span).Sublist spans ∧
      (diagnostics.map (Diagnostic.span source)).Sublist spans := by
  have tiled := h.tiled (Piece.fitting_cut source) (Piece.flatMap_text_cut source)
  rwa [Piece.flatMap_text_cut] at tiled

theorem inside (h : Readings config file [] (Piece.cut source) tokens diagnostics) :
    ∀ s ∈ tokens.map Token.span ++ diagnostics.map (Diagnostic.span source),
      0 ≤ s.1 ∧ s.1 < s.2 ∧ s.2 ≤ source.length := by
  obtain ⟨spans, tiled, perm, -, -⟩ := h.tiled_cut
  intro s hs
  have bounds := tiled.bounds s (perm.mem_iff.2 hs)
  simpa using bounds

theorem tokens_ascend (h : Readings config file [] (Piece.cut source) tokens diagnostics) :
    (tokens ++ [eofBehind file source]).Pairwise (·.location.offset < ·.location.offset) := by
  obtain ⟨spans, tiled, -, inTokens, -⟩ := h.tiled_cut
  have ascending := tiled.ascending.sublist inTokens
  rw [List.pairwise_map] at ascending
  refine List.pairwise_append.2 ⟨ascending, List.pairwise_singleton _ _, fun t ht e he => ?_⟩
  have bounds := h.inside t.span (List.mem_append_left _ (List.mem_map_of_mem ht))
  rw [List.mem_singleton.1 he]
  exact Int.lt_of_lt_of_le bounds.2.1 bounds.2.2

theorem diagnostics_ascend (h : Readings config file [] (Piece.cut source) tokens diagnostics) :
    diagnostics.Pairwise (·.location.offset < ·.location.offset) := by
  obtain ⟨spans, tiled, -, -, inDiagnostics⟩ := h.tiled_cut
  have ascending := tiled.ascending.sublist inDiagnostics
  simpa only [List.pairwise_map, Diagnostic.span_fst] using ascending

theorem covered (h : Readings config file [] (Piece.cut source) tokens diagnostics) :
    Covered source tokens (eofBehind file source) diagnostics where
  tiled := by
    obtain ⟨spans, tiled, perm, -, -⟩ := h.tiled_cut
    exact ⟨spans, tiled, perm⟩
  inside := h.inside
  disjoint := by
    obtain ⟨spans, tiled, perm, -, -⟩ := h.tiled_cut
    exact (perm.pairwise_iff fun {a b} => Or.symm).1 (tiled.pairwise.imp Or.inl)
  tokens_ascend := h.tokens_ascend
  diagnostics_ascend := h.diagnostics_ascend
  eof_kind := rfl
  eof_only := by
    intro t ht
    obtain ⟨front, piece, behind, -, -, gives⟩ := h.of_mem_token_cut ht
    exact gives.token_location.2.2
  eof_span := rfl
  eof_lexeme := rfl
  lexeme := by
    refine List.forall_mem_append.2 ⟨fun t ht other => ?_, List.forall_mem_singleton.2 fun _ => ?_⟩
    · obtain ⟨front, piece, behind, whole, -, gives⟩ := h.of_mem_token_cut ht
      exact gives.lexeme_slice whole other
    · have empty : slice source (eofBehind file source).span = [] :=
        slice_eq source [] [] (by simp) rfl (by rw [List.append_nil]; rfl)
      rw [empty]
      rfl
  contents := by
    intro t ht string
    obtain ⟨front, piece, behind, whole, -, gives⟩ := h.of_mem_token_cut ht
    exact gives.contents whole string

end Readings

/-- **Every scan covers its source.** -/
theorem scan_covers (config : Config) (h : config.bits ≤ Limit.maxBits) (file : Option String)
    (source : String) :
    ∃ tokens eof diagnostics, scan source file config = .ok ⟨tokens ++ [eof], diagnostics⟩ ∧
      Covered source.toList tokens eof diagnostics := by
  obtain ⟨tokens, diagnostics, scanned, readings⟩ := scan_readings h file source
  exact ⟨tokens, _, diagnostics, scanned, readings.covered⟩

theorem scan_covers_standard :
    Config.standard.bits ≤ Limit.maxBits ∧
      ∃ tokens eof diagnostics,
        scan "a='b'// c\n @99999999999 \"d" none Config.standard =
          .ok ⟨tokens ++ [eof], diagnostics⟩ ∧
        Covered "a='b'// c\n @99999999999 \"d".toList tokens eof diagnostics :=
  ⟨by decide, scan_covers Config.standard (by decide) none "a='b'// c\n @99999999999 \"d"⟩

end Lexis

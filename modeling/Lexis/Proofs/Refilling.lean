import Lexis.Proofs.Interiors
import Mathlib.Data.List.Forall2

/-!
# Other contents in comments and strings

* `Alters source result other`: the other text has the length and the line feeds of the source, and differs
  from it in interiors alone, with no quote in a string that would close it;
* `t.refill source`: the token with what stands between its quotes in the source, if it is a string;
* `Piece.Refilled piece other`: the pieces differ in the body of a comment or string alone.

A text that alters a source is cut into refilled pieces, each of which ends where the old one does, since
what a piece goes on with does not depend on its body. `scan_altered` says what that comes to: the scan of
the altered text is that of the source, with its strings refilled.
-/

namespace Lexis

/-- **The text differs from the source in interiors alone.** Its line feeds are where those of the source
are, and it does not close a string of the source before its end. -/
structure Alters (source : List Char) (result : ScanResult) (other : List Char) : Prop where
  length : other.length = source.length
  outside : ∀ p : Nat, ¬ Interior source result p → other[p]? = source[p]?
  feeds : ∀ p : Nat, other[p]? = some '\n' ↔ source[p]? = some '\n'
  strings : ∀ t ∈ result.tokens, ∀ p : Nat, t.Encloses p →
    other[p]? ≠ source[t.location.offset.toNat]?
  unclosed : ∀ d ∈ result.diagnostics, ∀ p : Nat, d.Encloses source p →
    other[p]? ≠ source[d.location.offset.toNat]?

/-- The token with what stands between its quotes in the source, if it is a string. -/
def Token.refill (source : List Char) (t : Token) : Token :=
  if t.kind = .string then
    let contents := String.ofList (slice source (t.location.offset + 1, t.stop - 1))
    { t with lexeme := contents, payload := some (.text contents) }
  else t

/-! ### Refilled pieces -/

theorem newline_mem_iff_of_feeds {cs ds : List Char} (h : feeds cs = feeds ds) :
    '\n' ∈ cs ↔ '\n' ∈ ds := by
  have counted : ∀ es : List Char, '\n' ∈ es ↔ true ∈ feeds es := by simp [feeds]
  rw [counted, counted, h]

namespace Piece

/-- The quote that must not stand inside the piece. -/
def quote? : Piece → Option Quote
  | quoted q _ => some q
  | unclosed q _ => some q
  | _ => none

/-- The pieces differ in the body of a comment or string alone, and not in its line feeds. -/
inductive Refilled : Piece → Piece → Prop
  | same (piece) : Refilled piece piece
  | comment {body other} : feeds other = feeds body → Refilled (.comment body) (.comment other)
  | quoted {q body other} : feeds other = feeds body → q.char ∉ other →
      Refilled (.quoted q body) (.quoted q other)
  | unclosed {q body other} : feeds other = feeds body → q.char ∉ other →
      Refilled (.unclosed q body) (.unclosed q other)

variable {piece other : Piece} {pieces others : List Piece}

/-- **A text that keeps all but what a piece hides is the text of a refilled piece.** -/
theorem exists_refilled {chunk : List Char} (same : feeds chunk = feeds piece.text)
    (outside : ∀ i, ¬ piece.hides i → chunk[i]? = piece.text[i]?)
    (closed : ∀ q, piece.quote? = some q → ∀ i, piece.hides i → chunk[i]? ≠ some q.char) :
    ∃ other, Refilled piece other ∧ other.text = chunk := by
  cases piece with
  | comment body =>
    obtain ⟨c, cs, rfl, -, behind⟩ := List.map_eq_cons_iff.1 same
    obtain ⟨d, other, rfl, -, alike⟩ := List.map_eq_cons_iff.1 behind
    have visible : ∀ i < 2, ¬ (comment body).hides i := fun i hi => Nat.not_le.2 hi
    obtain rfl : c = '/' := Option.some.inj (outside 0 (visible 0 (by decide)))
    obtain rfl : d = '/' := Option.some.inj (outside 1 (visible 1 (by decide)))
    exact ⟨_, .comment alike, rfl⟩
  | quoted q body =>
    obtain ⟨c, tail, rfl, -, behind⟩ := List.map_eq_cons_iff.1 same
    rw [List.map_append] at behind
    obtain ⟨other, last, rfl, alike, single⟩ := List.map_eq_append_iff.1 behind
    obtain ⟨d, rfl, -⟩ := List.map_eq_singleton_iff.1 single
    have length : other.length = body.length := length_eq_of_feeds alike
    obtain rfl : c = q.char := Option.some.inj (outside 0 fun hidden => absurd hidden.1 (by decide))
    obtain rfl : d = q.char := by
      have final := outside (body.length + 1) fun hidden => absurd hidden.2 (by omega)
      simpa [text, ← length] using final
    refine ⟨_, .quoted alike fun member => ?_, rfl⟩
    obtain ⟨i, within, found⟩ := List.mem_iff_getElem.1 member
    refine closed q rfl (i + 1) ⟨Nat.le_add_left 1 i, by omega⟩ ?_
    rw [List.getElem?_cons_succ, List.getElem?_append_left within, List.getElem?_eq_getElem within,
      found]
  | unclosed q body =>
    obtain ⟨c, other, rfl, -, alike⟩ := List.map_eq_cons_iff.1 same
    have visible : ¬ (unclosed q body).hides 0 := Nat.not_lt_zero 0
    obtain rfl : c = q.char := Option.some.inj (outside 0 visible)
    refine ⟨_, .unclosed alike fun member => ?_, rfl⟩
    obtain ⟨i, within, found⟩ := List.mem_iff_getElem.1 member
    refine closed q rfl (i + 1) (Nat.le_add_left 1 i) ?_
    rw [List.getElem?_cons_succ, List.getElem?_eq_getElem within, found]
  | _ => exact ⟨_, .same _, (List.ext_getElem? fun i => outside i not_false).symm⟩

namespace Refilled

theorem feeds_text (h : Refilled piece other) : feeds other.text = feeds piece.text := by
  cases h with
  | same => rfl
  | comment same | quoted same _ | unclosed same _ =>
    simp only [feeds] at same
    simp only [text, feeds, List.map_cons, List.map_append, same]

theorem goesOn_eq (h : Refilled piece other) : other.goesOn = piece.goesOn := by
  cases h <;> rfl

theorem head?_text (h : Refilled piece other) : other.text.head? = piece.text.head? := by
  cases h <;> rfl

theorem rule (h : Refilled piece other) (rule : Rule piece.text [] piece) :
    Rule other.text [] other := by
  cases h with
  | same => exact rule
  | comment same =>
    exact .regular (.comment (mt (newline_mem_iff_of_feeds same).1 rule.of_comment.1) (.inl rfl))
  | quoted _ fresh => exact .regular (.quoted fresh)
  | unclosed _ fresh => exact .regular (.unclosed fresh rfl)

end Refilled

theorem take_append_slice (cs : List Char) {start stop : Nat} (le : start ≤ stop) :
    cs.take start ++ slice cs (start, stop) = cs.take stop := by
  have first : (cs.take stop).take start = cs.take start := by rw [List.take_take, Nat.min_eq_left le]
  rw [← first]
  exact List.take_append_drop start (cs.take stop)

theorem exists_refilled_pieces {altered : List Char}
    (each : ∀ front piece behind, pieces = front ++ piece :: behind →
      ∃ other, Refilled piece other ∧
        other.text = slice altered (piece.spanBehind (front.flatMap text))) :
    ∃ others, List.Forall₂ Refilled pieces others ∧
      others.flatMap text = altered.take (pieces.flatMap text).length := by
  induction pieces using List.reverseRecOn with
  | nil => exact ⟨[], .nil, rfl⟩
  | append_singleton pieces piece ih =>
    obtain ⟨others, alike, texts⟩ := ih fun front piece' behind split =>
      each front piece' (behind ++ [piece]) (by simp [split])
    obtain ⟨other, refilled, text⟩ := each pieces piece [] rfl
    refine ⟨others ++ [other], List.rel_append alike (.cons refilled .nil), ?_⟩
    have le : (pieces.flatMap Piece.text).length ≤
        (pieces.flatMap Piece.text ++ piece.text).length := by
      rw [List.length_append]
      omega
    rw [List.flatMap_append, List.flatMap_append, List.flatMap_singleton, List.flatMap_singleton, texts,
      text]
    exact take_append_slice altered le

end Piece

/-- **Refilled pieces fit** as the old ones do. -/
theorem Fitting.refilled {pieces others : List Piece} (fits : Fitting pieces)
    (alike : List.Forall₂ Piece.Refilled pieces others) :
    Fitting others ∧ (others.flatMap Piece.text).head? = (pieces.flatMap Piece.text).head? := by
  -- a rule looks at the first character of the text behind, so that is carried along
  induction alike with
  | nil => exact ⟨trivial, rfl⟩
  | @cons piece other pieces others refilled _ ih =>
    obtain ⟨rule, fits⟩ := fits
    obtain ⟨fits', head⟩ := ih fits
    obtain ⟨alone, ends⟩ := Rule.iff_endsBefore.1 rule
    refine ⟨⟨Rule.iff_endsBefore.2 ⟨refilled.rule alone, ?_⟩, fits'⟩, ?_⟩
    · rw [refilled.goesOn_eq]
      exact ends.of_head head
    · rw [List.flatMap_cons, List.flatMap_cons, List.head?_append, List.head?_append,
        refilled.head?_text, head]

/-! ### What refilled pieces give -/

section

variable {config : Config} {file : String} {source before : List Char} {piece other : Piece}
  {pieces others : List Piece} {tokens : List Token} {diagnostics : List Diagnostic}

theorem Token.refill_congr {t u : Token} (kind : t.kind = .string) (kind' : u.kind = .string)
    (location : t.location = u.location) (stop : t.stop = u.stop) :
    t.refill source = u.refill source := by
  simp only [refill, kind, kind', if_true, location, stop]

theorem Gives.refill_eq {t : Token} {rest : List Char} (h : Gives config file before piece [t] [])
    (whole : before ++ (piece.text ++ rest) = source) : t.refill source = t := by
  by_cases string : t.kind = .string
  · obtain ⟨q, body, rfl, -⟩ := h.lexeme.2 string
    obtain ⟨-, -, -, -, contents⟩ := h.contents whole string
    unfold Token.refill
    rw [if_pos string, ← contents]
    cases h
    rfl
  · exact if_neg string

theorem Piece.Refilled.gives {altered rest : List Char} (h : Refilled piece other)
    (gives : Gives config file before piece tokens diagnostics) {front : List Char}
    (same : feeds front = feeds before) (whole : front ++ (other.text ++ rest) = altered) :
    Gives config file front other (tokens.map (Token.refill altered)) diagnostics := by
  cases h with
  | same =>
    have moved := gives.congr same
    rcases moved.outcome with ⟨rfl, rfl, -⟩ | ⟨t, rfl, rfl, -⟩ | ⟨d, rfl, rfl, -⟩
    · exact moved
    · rwa [List.map_singleton, moved.refill_eq whole]
    · exact moved
  | comment =>
    cases gives
    exact .comment _
  | @quoted q body contents alike =>
    cases gives
    have moved : Gives config file front (.quoted q contents) _ [] := .quoted q contents
    have place := (Location.behind_congr same file).symm
    have stop : ((before ++ (Piece.quoted q body).text).length : Int) =
        (front ++ (Piece.quoted q contents).text).length := by
      simp only [Piece.text, List.length_append, List.length_cons, length_eq_of_feeds same,
        length_eq_of_feeds alike]
    have refilled : ((Piece.quoted q body).tokenBehind file before .string body
        (some (.text (String.ofList body)))).refill altered =
          ((Piece.quoted q contents).tokenBehind file front .string contents
            (some (.text (String.ofList contents)))).refill altered :=
      Token.refill_congr rfl rfl place stop
    rw [List.map_singleton, refilled, moved.refill_eq whole]
    exact moved
  | unclosed =>
    cases gives
    rw [← Location.behind_congr same]
    exact .unclosed _ _

/-- **Refilled pieces give the same**, but for the contents of the strings. -/
theorem Readings.refilled {altered front : List Char}
    (h : Readings config file before pieces tokens diagnostics)
    (alike : List.Forall₂ Piece.Refilled pieces others) (same : feeds front = feeds before)
    (whole : front ++ others.flatMap Piece.text = altered) :
    Readings config file front others (tokens.map (Token.refill altered)) diagnostics := by
  induction h generalizing front others with
  | done before =>
    cases alike
    exact .done front
  | step gives _ ih =>
    cases alike with
    | @cons _ other _ others refilled alike =>
      rw [List.flatMap_cons] at whole
      rw [List.map_append]
      refine .step (refilled.gives gives same whole) (ih alike ?_ (by rwa [List.append_assoc]))
      rw [feeds_append, same, refilled.feeds_text, ← feeds_append]

end

/-! ### Altered texts -/

section

variable {config : Config} {file : String} {source other : List Char} {tokens : List Token}
  {diagnostics : List Diagnostic}

namespace Alters

variable {result : ScanResult} (alters : Alters source result other)
include alters

theorem feeds_eq : Lexis.feeds other = Lexis.feeds source := by
  refine List.ext_getElem ?_ fun i within within' => ?_
  · rw [Lexis.feeds, Lexis.feeds, List.length_map, List.length_map, alters.length]
  · simp only [Lexis.feeds, List.length_map] at within within'
    have same := alters.feeds i
    rw [List.getElem?_eq_getElem within, List.getElem?_eq_getElem within', Option.some.injEq,
      Option.some.injEq] at same
    simp only [Lexis.feeds, List.getElem_map, same]

end Alters

theorem getElem?_slice_spanBehind (altered before : List Char) (piece : Piece) (i : Nat) :
    (slice altered (piece.spanBehind before))[i]? =
      if i < piece.text.length then altered[before.length + i]? else none := by
  show ((altered.take (before ++ piece.text).length).drop before.length)[i]? = _
  rw [List.getElem?_drop, List.getElem?_take, List.length_append]
  simp only [Nat.add_lt_add_iff_left]

theorem feeds_slice {cs ds : List Char} (same : feeds cs = feeds ds) (span : Int × Int) :
    feeds (slice cs span) = feeds (slice ds span) := by
  simp only [feeds] at same
  simp only [feeds, slice, List.map_drop, List.map_take, same]

section

variable (readings : Readings config file [] (Piece.cut source) tokens diagnostics)
  (alters : Alters source ⟨tokens ++ [eofBehind file source], diagnostics⟩ other)
  {p : Nat} {front : List Piece} {piece : Piece}
include readings alters

theorem Alters.getElem?_eq (here : Piece.At source p front piece)
    (visible : ¬ piece.hides (p - (front.flatMap Piece.text).length)) : other[p]? = source[p]? := by
  refine alters.outside p fun interior => ?_
  obtain ⟨front', piece', there, hides⟩ := readings.interior_iff.1 interior
  obtain ⟨rfl, rfl⟩ := here.unique there
  exact visible hides

theorem Alters.getElem?_ne_quote {q : Quote} (here : Piece.At source p front piece)
    (quote : piece.quote? = some q)
    (hides : piece.hides (p - (front.flatMap Piece.text).length)) : other[p]? ≠ some q.char := by
  have start : Piece.At source (front.flatMap Piece.text).length front piece :=
    ⟨here.split, Nat.le_refl _, Nat.lt_of_le_of_lt here.starts here.stops⟩
  have opening := start.getElem?
  rw [Nat.sub_self] at opening
  obtain ⟨ts, ds, gives, inTokens, inDiagnostics, -⟩ := readings.gives_of_at here
  cases piece with
  | quoted q body =>
    cases quote
    cases gives
    have member := List.mem_append_left [eofBehind file source] (inTokens List.mem_cons_self)
    have differs := alters.strings _ member p (encloses_tokenBehind_iff.2 hides)
    exact fun same => differs (same.trans opening.symm)
  | unclosed q body =>
    cases quote
    cases gives
    have member := inDiagnostics List.mem_cons_self
    have differs := alters.unclosed _ member p
      (encloses_unterminatedString_iff.2 ⟨hides, here.lt_length⟩)
    exact fun same => differs (same.trans opening.symm)
  | _ => cases quote

/-- **Each piece of a source is refilled** in a text that alters it. -/
theorem Alters.exists_refilled {behind : List Piece}
    (split : Piece.cut source = front ++ piece :: behind) :
    ∃ refilled, Piece.Refilled piece refilled ∧
      refilled.text = slice other (piece.spanBehind (front.flatMap Piece.text)) := by
  obtain ⟨whole, -⟩ := Piece.rule_of_cut split
  refine Piece.exists_refilled ?_ (fun i visible => ?_) fun q quote i hidden => ?_
  · rw [feeds_slice alters.feeds_eq, Piece.spanBehind, slice_eq _ _ _ whole rfl rfl]
  · rw [getElem?_slice_spanBehind]
    by_cases within : i < piece.text.length
    · have here := Piece.At.of_split split within
      rw [← Nat.add_sub_cancel_left (front.flatMap Piece.text).length i] at visible
      rw [if_pos within, alters.getElem?_eq readings here visible, here.getElem?,
        Nat.add_sub_cancel_left]
    · rw [if_neg within, List.getElem?_eq_none (Nat.le_of_not_lt within)]
  · rw [getElem?_slice_spanBehind]
    by_cases within : i < piece.text.length
    · have here := Piece.At.of_split split within
      rw [← Nat.add_sub_cancel_left (front.flatMap Piece.text).length i] at hidden
      rw [if_pos within]
      exact alters.getElem?_ne_quote readings here quote hidden
    · rw [if_neg within]
      exact (Option.some_ne_none q.char).symm

end

/-! ### Scans -/

/-- **What stands inside comments and strings does not matter.** A text that differs from the source in
interiors alone has the same diagnostics and the same tokens, but for the contents of the strings. -/
theorem scan_altered (config : Config) (narrow : config.bits ≤ 14284) (file : Option String)
    (source : String) :
    ∃ result : ScanResult, scan source file config = .ok result ∧
      ∀ other : String, Alters source.toList result other.toList →
        scan other file config =
          .ok ⟨result.tokens.map (Token.refill other.toList), result.diagnostics⟩ := by
  obtain ⟨tokens, diagnostics, scanned, readings⟩ := scan_readings narrow file source
  refine ⟨_, scanned, fun other alters => ?_⟩
  obtain ⟨others, alike, whole⟩ := Piece.exists_refilled_pieces fun front piece behind split =>
    alters.exists_refilled readings split
  rw [Piece.flatMap_text_cut, ← alters.length, List.take_length] at whole
  have fits := ((Piece.fitting_cut source.toList).refilled alike).1
  have given := readings.refilled alike rfl whole
  rw [← Piece.cut_eq_iff.2 ⟨fits, whole⟩] at given
  have eof : (eofBehind (config.fileName file) source.toList).refill other.toList =
      eofBehind (config.fileName file) other.toList := by
    rw [eofBehind_congr alters.feeds_eq]
    exact if_neg Kind.noConfusion
  rw [scan_eq_of_readings narrow given, List.map_append, List.map_singleton, eof]

/-- Quotes and slashes in a string, in a comment, and in a string that nothing closes. -/
theorem scan_altered_standard :
    Config.standard.bits ≤ 14284 ∧
      ∃ result : ScanResult, scan "'a' //b\n\"c" none Config.standard = .ok result ∧
        Alters "'a' //b\n\"c".toList result "'\"' //'\n\"/".toList ∧
        scan "'\"' //'\n\"/" none Config.standard =
          .ok ⟨result.tokens.map (Token.refill "'\"' //'\n\"/".toList), result.diagnostics⟩ := by
  obtain ⟨result, scanned, law⟩ :=
    scan_altered Config.standard (by decide) none "'a' //b\n\"c"
  have shown : (scan "'a' //b\n\"c" none Config.standard).toOption.map (fun result =>
      (result.tokens.map (fun t => (t.kind, t.span)),
        result.diagnostics.map fun d => (d.fault, d.location.offset))) =
        some ([(.string, (0, 3)), (.eof, (10, 10))], [(.unterminatedLiteral, 8)]) := by
    decide +kernel
  rw [scanned] at shown
  obtain ⟨tokens, diagnostics⟩ := result
  obtain ⟨spans, faults⟩ := Prod.mk.inj (Option.some.inj shown)
  obtain ⟨t, ts, rfl, string, rest⟩ := List.map_eq_cons_iff.1 spans
  obtain ⟨eof, rfl, last⟩ := List.map_eq_singleton_iff.1 rest
  obtain ⟨d, rfl, fault⟩ := List.map_eq_singleton_iff.1 faults
  simp only [Prod.mk.injEq, Token.span] at string last fault
  have alters : Alters "'a' //b\n\"c".toList ⟨[t, eof], [d]⟩ "'\"' //'\n\"/".toList := by
    constructor
    case length => decide
    case outside =>
      intro p outside
      have kept : ∀ p < 10, p ≠ 1 → p ≠ 6 → p ≠ 9 →
          "'\"' //'\n\"/".toList[p]? = "'a' //b\n\"c".toList[p]? := by decide
      have hidden : ¬ ScanResult.Shows "'a' //b\n\"c".toList ⟨[t, eof], [d]⟩ 4 := by
        have span : (d.span "'a' //b\n\"c".toList).1 = 8 := (d.span_fst _).trans fault.2
        rintro ⟨s, listed, starts, stops⟩
        simp only [List.map_cons, List.map_nil, List.cons_append, List.nil_append, List.mem_cons,
          List.not_mem_nil, or_false] at listed
        rcases listed with rfl | rfl | rfl
        · simp only [Token.span] at stops
          omega
        · simp only [Token.span] at starts
          omega
        · omega
      by_cases within : p < 10
      · refine kept p within ?_ ?_ ?_
        · rintro rfl
          exact outside (.string List.mem_cons_self ⟨string.1, by omega, by omega⟩)
        · rintro rfl
          have sameLine : ∀ i < 7, 4 ≤ i → "'a' //b\n\"c".toList[i]? ≠ some '\n' := by decide
          exact outside (.comment hidden rfl rfl (by decide) (by decide) fun i low high =>
            sameLine i (by omega) low)
        · rintro rfl
          exact outside (.unclosed List.mem_cons_self ⟨fault.1, by omega, by decide⟩)
      · rw [List.getElem?_eq_none (Nat.le_of_not_lt within),
          List.getElem?_eq_none (Nat.le_of_not_lt within)]
    case feeds =>
      intro p
      have kept : ∀ p < 10, "'\"' //'\n\"/".toList[p]? = some '\n' ↔
          "'a' //b\n\"c".toList[p]? = some '\n' := by decide
      by_cases within : p < 10
      · exact kept p within
      · rw [List.getElem?_eq_none (Nat.le_of_not_lt within),
          List.getElem?_eq_none (Nat.le_of_not_lt within)]
    case strings =>
      intro u member p inside
      obtain ⟨kind, starts, stops⟩ := inside
      simp only [List.mem_cons, List.not_mem_nil, or_false] at member
      rcases member with rfl | rfl
      · obtain rfl : p = 1 := by omega
        rw [string.2.1]
        decide
      · cases last.1.symm.trans kind
    case unclosed =>
      intro e member p inside
      obtain ⟨-, starts, stops⟩ := inside
      obtain rfl := List.mem_singleton.1 member
      have stops : p < 10 := stops
      obtain rfl : p = 9 := by omega
      rw [fault.2]
      decide
  exact ⟨by decide, _, scanned, alters, law _ alters⟩

end

end Lexis

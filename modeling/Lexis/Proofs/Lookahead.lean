import Lexis.Proofs.Extents

/-!
# Text that is added at the end

Only the last piece of a text can change when text is added behind it, since each rule looks no further
than at one character behind its piece: `Piece.cut_extend`. So what a scan gives before its last piece
stays the same whatever is added, which is `scan_extend`.
-/

namespace Lexis

/-- **All pieces of a text but the last** are pieces of the text with more behind it. -/
theorem Piece.cut_extend {source : List Char} {front : List Piece} {last : Piece}
    (split : cut source = front ++ [last]) (added : List Char) :
    cut (source ++ added) = front ++ cut (last.text ++ added) := by
  obtain ⟨whole, rule⟩ := rule_of_cut split
  rw [List.flatMap_nil] at whole rule
  rw [List.append_nil] at whole
  refine cut_eq_iff.2 ⟨?_, ?_⟩
  · have fits : Fitting (front ++ [last]) := split ▸ fitting_cut source
    refine fits.replace (fitting_cut _) fun piece _ found => found.of_head ?_
    -- the text of the last piece is not empty, so it starts the same with more behind it
    obtain ⟨c, cs, shape⟩ := List.exists_cons_of_ne_nil rule.text_ne_nil
    rw [flatMap_text_cut, List.flatMap_singleton, shape]
    rfl
  · rw [List.flatMap_append, flatMap_text_cut, ← List.append_assoc, whole]

theorem filter_append_eq_left {α : Type} {p : α → Bool} {front behind : List α}
    (kept : ∀ a ∈ front, p a = true) (dropped : ∀ a ∈ behind, p a = false) :
    (front ++ behind).filter p = front := by
  have none : behind.filter p = [] :=
    List.filter_eq_nil_iff.2 fun a ha => by rw [dropped a ha]; exact Bool.false_ne_true
  rw [List.filter_append, List.filter_eq_self.2 kept, none, List.append_nil]

variable {config : Config} {file : String} {source : List Char} {front behind : List Piece}
  {tokens : List Token} {diagnostics : List Diagnostic}

/-- More of the source stands behind the token. -/
def Token.endsWithin (source : List Char) (t : Token) : Bool := decide (t.stop < source.length)

/-- More of the source stands behind what the diagnostic is about. -/
def Diagnostic.endsWithin (source : List Char) (d : Diagnostic) : Bool :=
  decide ((d.span source).2 < source.length)

theorem eofBehind_endsWithin (file : String) (source : List Char) :
    (eofBehind file source).endsWithin source = false :=
  decide_eq_false (Int.lt_irrefl _)

/-- What a piece gives ends within the source just if others follow the piece. -/
theorem Gives.endsWithin {piece : Piece} (split : Piece.cut source = front ++ piece :: behind)
    (h : Gives config file (front.flatMap Piece.text) piece tokens diagnostics) :
    (∀ t ∈ tokens, t.endsWithin source = decide (behind ≠ [])) ∧
      ∀ d ∈ diagnostics, d.endsWithin source = decide (behind ≠ []) := by
  have parted : Piece.cut source = front ++ [piece] ++ behind := split.trans (List.append_cons ..)
  have less : (((front ++ [piece]).flatMap Piece.text).length : Int) < source.length ↔
      behind ≠ [] := by
    rw [Int.ofNat_lt]
    refine ⟨?_, Piece.length_flatMap_lt parted⟩
    rintro shorter rfl
    rw [List.append_nil] at parted
    rw [← parted, Piece.flatMap_text_cut] at shorter
    exact Nat.lt_irrefl _ shorter
  obtain ⟨onTokens, onDiagnostics⟩ := h.ends split
  constructor
  · intro t ht
    rw [Token.endsWithin, onTokens t ht]
    exact decide_eq_decide.2 less
  · intro d hd
    rw [Diagnostic.endsWithin, onDiagnostics d hd]
    exact decide_eq_decide.2 less

theorem Readings.endsWithin (h : Readings config file [] front tokens diagnostics)
    (split : Piece.cut source = front ++ behind) (more : behind ≠ []) :
    (∀ t ∈ tokens, t.endsWithin source = true) ∧
      ∀ d ∈ diagnostics, d.endsWithin source = true := by
  have followed : ∀ rest, decide (rest ++ behind ≠ []) = true := fun rest =>
    decide_eq_true (List.append_ne_nil_of_right_ne_nil rest more)
  constructor
  · intro t ht
    obtain ⟨first, piece, rest, rfl, gives⟩ := h.of_mem_token ht
    rw [List.append_assoc, List.cons_append] at split
    rw [(gives.endsWithin split).1 t List.mem_cons_self, followed]
  · intro d hd
    obtain ⟨first, piece, rest, rfl, gives⟩ := h.of_mem_diagnostic hd
    rw [List.append_assoc, List.cons_append] at split
    rw [(gives.endsWithin split).2 d List.mem_cons_self, followed]

theorem Readings.filter_endsWithin {last : Piece}
    (h : Readings config file [] (front ++ [last]) tokens diagnostics)
    (split : Piece.cut source = front ++ [last]) :
    Readings config file [] front (tokens.filter (Token.endsWithin source))
      (diagnostics.filter (Diagnostic.endsWithin source)) := by
  obtain ⟨ts, us, ds, es, rfl, rfl, before, behind⟩ := h.of_append
  obtain ⟨kept, keptFaults⟩ := before.endsWithin split (List.cons_ne_nil last [])
  cases behind with
  | step gives done =>
    cases done
    obtain ⟨dropped, droppedFaults⟩ := gives.endsWithin split
    rw [List.append_nil, List.append_nil, filter_append_eq_left kept dropped,
      filter_append_eq_left keptFaults droppedFaults]
    exact before

/-- **One character of lookahead is enough**: what ends before the end of the source is what a scan
gives first, in the same way, whatever is added to the source. -/
theorem scan_extend (config : Config) (h : config.bits ≤ Limit.maxBits) (file : Option String)
    (source added : String) :
    ∃ tokens diagnostics ts ds,
      scan source file config = .ok ⟨tokens, diagnostics⟩ ∧
      scan (source ++ added) file config = .ok ⟨ts, ds⟩ ∧
      tokens.filter (Token.endsWithin source.toList) <+: ts ∧
      diagnostics.filter (Diagnostic.endsWithin source.toList) <+: ds := by
  obtain ⟨tokens, diagnostics, scanned, readings⟩ := scan_readings h file source
  obtain ⟨ts, ds, scanned', readings'⟩ := scan_readings h file (source ++ added)
  refine ⟨_, diagnostics, _, ds, scanned, scanned', ?_⟩
  have noEnd : [eofBehind (config.fileName file) source.toList].filter
      (Token.endsWithin source.toList) = [] :=
    List.filter_cons_of_neg (by simp [eofBehind_endsWithin])
  rw [List.filter_append, noEnd, List.append_nil]
  rcases List.eq_nil_or_concat (Piece.cut source.toList) with none | ⟨front, last, split⟩
  · rw [none] at readings
    cases readings
    exact ⟨List.nil_prefix, List.nil_prefix⟩
  · rw [List.concat_eq_append] at split
    rw [split] at readings
    rw [String.toList_append, Piece.cut_extend split] at readings'
    obtain ⟨kept, more, keptFaults, moreFaults, rfl, rfl, again, -⟩ := readings'.of_append
    obtain ⟨same, sameFaults⟩ := (readings.filter_endsWithin split).unique again
    rw [same, sameFaults, List.append_assoc]
    exact ⟨List.prefix_append _ _, List.prefix_append _ _⟩

/-- The string that is not closed becomes a token, and nothing before it changes. -/
theorem scan_extend_standard :
    Config.standard.bits ≤ Limit.maxBits ∧
      ∃ tokens diagnostics ts ds,
        scan "a @ 99999999999/ 'b" none Config.standard = .ok ⟨tokens, diagnostics⟩ ∧
        scan ("a @ 99999999999/ 'b" ++ "' c") none Config.standard = .ok ⟨ts, ds⟩ ∧
        tokens.filter (Token.endsWithin "a @ 99999999999/ 'b".toList) <+: ts ∧
        diagnostics.filter (Diagnostic.endsWithin "a @ 99999999999/ 'b".toList) <+: ds :=
  ⟨by decide, scan_extend Config.standard (by decide) none "a @ 99999999999/ 'b" "' c"⟩

end Lexis

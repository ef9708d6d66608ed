import Lexis.Proofs.Coverage

/-!
# What stands inside comments and strings

* `Interior source result p`: the offset `p` is inside a comment, between the quotes of a string, or behind
  a quote that is not closed, by the characters of the source and the result of its scan;
* `Piece.At source p front piece`: the piece of the source at the offset `p`, with the pieces before it;
* `piece.hides i`: the `i`-th character of the piece is inside a comment or a string.

`Readings.shows_iff` says which offsets the result of a scan is about, and `Readings.interior_iff` where the
interiors are in terms of the pieces.
-/

namespace Lexis

/-! ### Interiors -/

/-- A token or a diagnostic of the result is about the character at the offset. -/
def ScanResult.Shows (source : List Char) (result : ScanResult) (p : Nat) : Prop :=
  ∃ s ∈ result.tokens.map Token.span ++ result.diagnostics.map (Diagnostic.span source),
    s.1 ≤ p ∧ (p : Int) < s.2

/-- The offset is between the quotes of the string. -/
def Token.Encloses (t : Token) (p : Nat) : Prop :=
  t.kind = .string ∧ t.location.offset < p ∧ (p : Int) + 1 < t.stop

/-- The offset is behind the quote that is not closed. -/
def Diagnostic.Encloses (source : List Char) (d : Diagnostic) (p : Nat) : Prop :=
  d.fault = .unterminatedLiteral ∧ d.location.offset < p ∧ p < source.length

/-- **The offset is inside a comment or a string.** -/
inductive Interior (source : List Char) (result : ScanResult) (p : Nat) : Prop
  /-- Behind two slashes that the result does not show, in their line. -/
  | comment {k} : ¬ result.Shows source k → source[k]? = some '/' → source[k + 1]? = some '/' →
      k + 2 ≤ p → p < source.length → (∀ i, k ≤ i → i ≤ p → source[i]? ≠ some '\n') →
      Interior source result p
  | string {t} : t ∈ result.tokens → t.Encloses p → Interior source result p
  | unclosed {d} : d ∈ result.diagnostics → d.Encloses source p → Interior source result p

namespace Piece

/-- The character of the piece at the index is inside a comment or a string. -/
def hides : Piece → Nat → Prop
  | comment _, i => 2 ≤ i
  | quoted _ body, i => 1 ≤ i ∧ i ≤ body.length
  | unclosed _ _, i => 1 ≤ i
  | _, _ => False

/-- **The piece of the source at an offset**, behind the pieces `front`. -/
structure At (source : List Char) (p : Nat) (front : List Piece) (piece : Piece) : Prop where
  split : ∃ behind, cut source = front ++ piece :: behind
  starts : (front.flatMap text).length ≤ p
  stops : p < (front.flatMap text ++ piece.text).length

/-! ### Pieces at offsets -/

variable {source : List Char} {p : Nat} {front front' : List Piece} {piece piece' : Piece}

theorem exists_at (within : p < source.length) : ∃ front piece, At source p front piece := by
  have reach : ∀ pieces : List Piece, p < (pieces.flatMap text).length →
      ∃ front piece behind, pieces = front ++ piece :: behind ∧ (front.flatMap text).length ≤ p ∧
        p < (front.flatMap text ++ piece.text).length := by
    intro pieces
    induction pieces using List.reverseRecOn with
    | nil => exact fun h => absurd h (Nat.not_lt_zero p)
    | append_singleton pieces last ih =>
      intro h
      by_cases before : p < (pieces.flatMap text).length
      · obtain ⟨front, piece, behind, rfl, bounds⟩ := ih before
        exact ⟨front, piece, behind ++ [last], by simp, bounds⟩
      · rw [List.flatMap_append, List.flatMap_singleton] at h
        exact ⟨pieces, last, [], rfl, Nat.le_of_not_lt before, h⟩
  rw [← flatMap_text_cut source] at within
  obtain ⟨front, piece, behind, split, starts, stops⟩ := reach _ within
  exact ⟨front, piece, ⟨behind, split⟩, starts, stops⟩

namespace At

theorem eq_of_append {mid behind behind' : List Piece} (h : At source p front piece)
    (h' : At source p (front ++ mid) piece') (rest : piece :: behind = mid ++ piece' :: behind') :
    mid = [] ∧ piece = piece' := by
  cases mid with
  | nil => exact ⟨rfl, (List.cons.inj rest).1⟩
  | cons first mid =>
    obtain ⟨rfl, -⟩ := List.cons.inj rest
    have starts := h'.starts
    have stops := h.stops
    simp only [List.flatMap_append, List.flatMap_cons, List.length_append] at starts stops
    omega

theorem unique (h : At source p front piece) (h' : At source p front' piece') :
    front = front' ∧ piece = piece' := by
  obtain ⟨behind, split⟩ := h.split
  obtain ⟨behind', split'⟩ := h'.split
  rcases List.append_eq_append_iff.1 (split.symm.trans split') with
    ⟨mid, rfl, rest⟩ | ⟨mid, rfl, rest⟩
  · obtain ⟨rfl, rfl⟩ := h.eq_of_append h' rest
    exact ⟨(List.append_nil front).symm, rfl⟩
  · obtain ⟨rfl, rfl⟩ := h'.eq_of_append h rest
    exact ⟨List.append_nil front', rfl⟩

theorem getElem? (h : At source p front piece) :
    source[p]? = piece.text[p - (front.flatMap text).length]? := by
  obtain ⟨behind, split⟩ := h.split
  obtain ⟨starts, stops⟩ := And.intro h.starts h.stops
  rw [List.length_append] at stops
  rw [← (rule_of_cut split).1, List.getElem?_append_right starts,
    List.getElem?_append_left (by omega)]

theorem lt_length (h : At source p front piece) : p < source.length := by
  obtain ⟨behind, split⟩ := h.split
  have stops := h.stops
  rw [← (rule_of_cut split).1, ← List.append_assoc, List.length_append]
  omega

theorem of_span {behind : List Piece} (split : cut source = front ++ piece :: behind)
    (starts : (piece.spanBehind (front.flatMap text)).1 ≤ p)
    (stops : (p : Int) < (piece.spanBehind (front.flatMap text)).2) : At source p front piece where
  split := ⟨behind, split⟩
  starts := Int.ofNat_le.1 starts
  stops := Int.ofNat_lt.1 stops

theorem of_same_line {k : Nat} {body : List Char} (here : At source k front (.comment body))
    (le : k ≤ p) (within : p < source.length)
    (sameLine : ∀ i, k ≤ i → i ≤ p → source[i]? ≠ some '\n') :
    At source p front (.comment body) := by
  obtain ⟨behind, split⟩ := here.split
  obtain ⟨whole, rule⟩ := rule_of_cut split
  refine ⟨here.split, Nat.le_trans here.starts le, ?_⟩
  by_contra beyond
  have stops := here.stops
  rw [← List.append_assoc] at whole
  rcases rule.of_comment.2 with last | feed
  · rw [last, List.append_nil] at whole
    rw [whole] at beyond
    exact beyond within
  · refine sameLine _ (Nat.le_of_lt stops) (Nat.le_of_not_lt beyond) ?_
    rw [← whole, List.getElem?_append_right (Nat.le_refl _), Nat.sub_self, ← List.head?_eq_getElem?]
    exact feed

theorem ne_newline {body : List Char} (here : At source p front (.comment body)) :
    source[p]? ≠ some '\n' := by
  obtain ⟨behind, split⟩ := here.split
  intro feed
  have member : '\n' ∈ (comment body).text := List.mem_of_getElem? (here.getElem?.symm.trans feed)
  have inside := (rule_of_cut split).2.of_comment.1
  simp only [text, List.mem_cons] at member
  rcases member with slash | slash | member
  · exact absurd slash (by decide)
  · exact absurd slash (by decide)
  · exact inside member

theorem of_split {behind : List Piece} (split : cut source = front ++ piece :: behind) {i : Nat}
    (within : i < piece.text.length) : At source ((front.flatMap text).length + i) front piece :=
  ⟨⟨behind, split⟩, Nat.le_add_right _ _, by rw [List.length_append]; omega⟩

end At

end Piece

/-! ### Interiors of pieces -/

section

variable {config : Config} {file : String} {source : List Char} {p : Nat} {front : List Piece}
  {piece : Piece} {tokens : List Token} {diagnostics : List Diagnostic}

/-- The token of a string encloses what its piece hides. -/
theorem encloses_tokenBehind_iff {before : List Char} {q : Quote} {body lexeme : List Char}
    {payload : Option Literal} :
    ((Piece.quoted q body).tokenBehind file before .string lexeme payload).Encloses p ↔
      (Piece.quoted q body).hides (p - before.length) := by
  have stop : ((before ++ (Piece.quoted q body).text).length : Int) =
      before.length + (body.length + 2) := by
    simp [Piece.text, Int.add_assoc]
  show _ ∧ (before.length : Int) < p ∧
      (p : Int) + 1 < (before ++ (Piece.quoted q body).text).length ↔
    1 ≤ p - before.length ∧ p - before.length ≤ body.length
  rw [stop]
  constructor
  · rintro ⟨-, starts, stops⟩
    omega
  · rintro ⟨starts, stops⟩
    exact ⟨rfl, by omega, by omega⟩

theorem encloses_unterminatedString_iff {before : List Char} {q : Quote} {body : List Char}
    {quote : String} :
    (Diagnostic.unterminatedString quote (.behind file before)).Encloses source p ↔
      (Piece.unclosed q body).hides (p - before.length) ∧ p < source.length := by
  show _ ∧ (before.length : Int) < p ∧ _ ↔ 1 ≤ p - before.length ∧ _
  constructor
  · rintro ⟨-, starts, stops⟩
    exact ⟨by omega, stops⟩
  · rintro ⟨starts, stops⟩
    exact ⟨rfl, by omega, stops⟩

namespace Readings

open Piece

variable (h : Readings config file [] (cut source) tokens diagnostics)
include h

theorem exists_token_at {t : Token} (ht : t ∈ tokens) :
    ∃ front piece, Gives config file (front.flatMap text) piece [t] [] ∧
      ∀ p : Nat, t.span.1 ≤ p → (p : Int) < t.span.2 → At source p front piece := by
  obtain ⟨front, piece, behind, split, gives⟩ := h.of_mem_token ht
  refine ⟨front, piece, gives, fun p starts stops => ?_⟩
  rw [gives.token_span] at starts stops
  exact .of_span split starts stops

theorem exists_diagnostic_at {d : Diagnostic} (hd : d ∈ diagnostics) :
    ∃ front piece, Gives config file (front.flatMap text) piece [] [d] ∧
      ∀ p : Nat, (d.span source).1 ≤ p → (p : Int) < (d.span source).2 →
        At source p front piece := by
  obtain ⟨front, piece, behind, split, gives⟩ := h.of_mem_diagnostic hd
  obtain ⟨whole, rule⟩ := rule_of_cut split
  have spanned := gives.diagnostic_span rule
  rw [List.nil_append, whole] at spanned
  refine ⟨front, piece, gives, fun p starts stops => ?_⟩
  rw [spanned] at starts stops
  exact .of_span split starts stops

/-- The piece at an offset gives part of the result, about all its offsets. -/
theorem gives_of_at (here : At source p front piece) :
    ∃ ts ds, Gives config file (front.flatMap text) piece ts ds ∧
      ts ⊆ tokens ∧ ds ⊆ diagnostics ∧
      (∀ t ∈ ts, t.span = piece.spanBehind (front.flatMap text)) ∧
      ∀ d ∈ ds, d.span source = piece.spanBehind (front.flatMap text) := by
  obtain ⟨behind, split⟩ := here.split
  obtain ⟨whole, rule⟩ := rule_of_cut split
  rw [split] at h
  obtain ⟨ts, ds, gives, inTokens, inDiagnostics⟩ := h.gives_at
  rw [List.nil_append] at gives
  refine ⟨ts, ds, gives, inTokens, inDiagnostics, ?_⟩
  rcases gives.outcome with ⟨rfl, rfl, -⟩ | ⟨t, rfl, rfl, -⟩ | ⟨d, rfl, rfl, -⟩
  · exact ⟨List.forall_mem_nil _, List.forall_mem_nil _⟩
  · exact ⟨List.forall_mem_singleton.2 gives.token_span, List.forall_mem_nil _⟩
  · have spanned := gives.diagnostic_span rule
    rw [whole] at spanned
    exact ⟨List.forall_mem_nil _, List.forall_mem_singleton.2 spanned⟩

/-- **The result shows all but the comments and blanks.** -/
theorem shows_iff :
    ScanResult.Shows source ⟨tokens ++ [eofBehind file source], diagnostics⟩ p ↔
      ∃ front piece, At source p front piece ∧ piece.isBlank = false := by
  constructor
  · rintro ⟨s, listed, starts, stops⟩
    rcases List.mem_append.1 listed with token | diagnostic
    · obtain ⟨t, member, rfl⟩ := List.mem_map.1 token
      rcases List.mem_append.1 member with member | eof
      · obtain ⟨front, piece, gives, here⟩ := h.exists_token_at member
        refine ⟨front, piece, here p starts stops, ?_⟩
        by_contra blank
        cases (gives.unique (.of_isBlank (eq_true_of_ne_false blank) _)).1
      · cases List.mem_singleton.1 eof
        exact absurd starts (Int.not_le.2 stops)
    · obtain ⟨d, member, rfl⟩ := List.mem_map.1 diagnostic
      obtain ⟨front, piece, gives, here⟩ := h.exists_diagnostic_at member
      refine ⟨front, piece, here p starts stops, ?_⟩
      by_contra blank
      cases (gives.unique (.of_isBlank (eq_true_of_ne_false blank) _)).2
  · rintro ⟨front, piece, here, shown⟩
    have inside : (piece.spanBehind (front.flatMap text)).1 ≤ p ∧
        (p : Int) < (piece.spanBehind (front.flatMap text)).2 :=
      ⟨Int.ofNat_le.2 here.starts, Int.ofNat_lt.2 here.stops⟩
    obtain ⟨ts, ds, gives, inTokens, inDiagnostics, tokenSpan, diagnosticSpan⟩ := h.gives_of_at here
    rcases gives.outcome with ⟨-, -, blank⟩ | ⟨t, rfl, rfl, -⟩ | ⟨d, rfl, rfl, -⟩
    · cases shown.symm.trans blank
    · rw [← tokenSpan t List.mem_cons_self] at inside
      have member := List.mem_append_left [eofBehind file source] (inTokens List.mem_cons_self)
      exact ⟨t.span, List.mem_append_left _ (List.mem_map_of_mem member), inside⟩
    · rw [← diagnosticSpan d List.mem_cons_self] at inside
      have member := inDiagnostics List.mem_cons_self
      exact ⟨d.span source, List.mem_append_right _ (List.mem_map_of_mem member), inside⟩

theorem exists_comment_at
    (hidden : ¬ ScanResult.Shows source ⟨tokens ++ [eofBehind file source], diagnostics⟩ p)
    (slash : source[p]? = some '/') : ∃ front body, At source p front (.comment body) := by
  obtain ⟨front, piece, here⟩ := exists_at (List.getElem?_eq_some_iff.1 slash).1
  have blank : piece.isBlank = true := by
    by_contra shown
    exact hidden (h.shows_iff.2 ⟨front, piece, here, eq_false_of_ne_true shown⟩)
  have member : '/' ∈ piece.text := List.mem_of_getElem? (here.getElem?.symm.trans slash)
  cases piece with
  | comment body => exact ⟨front, body, here⟩
  | space => exact absurd member (by decide)
  | newline => exact absurd member (by decide)
  | _ => cases blank

theorem interior_of_comment {body : List Char} (here : At source p front (.comment body))
    (hides : (front.flatMap text).length + 2 ≤ p) :
    Interior source ⟨tokens ++ [eofBehind file source], diagnostics⟩ p := by
  have long : ∀ i < 2, i < (comment body).text.length := by
    intro i hi
    simp only [text, List.length_cons]
    omega
  obtain ⟨behind, split⟩ := here.split
  have first := At.of_split split (long 0 (by decide))
  have second := At.of_split split (long 1 (by decide))
  have slash := first.getElem?
  have slash' := second.getElem?
  rw [Nat.add_sub_cancel_left] at slash slash'
  refine .comment ?_ slash slash' hides here.lt_length fun i low high => ?_
  · intro shows
    obtain ⟨front', piece, there, shown⟩ := h.shows_iff.1 shows
    obtain ⟨-, rfl⟩ := first.unique there
    cases shown
  · have stops := Nat.lt_of_le_of_lt high here.stops
    exact At.ne_newline ⟨here.split, low, stops⟩

/-- **The interiors, piece by piece.** -/
theorem interior_iff :
    Interior source ⟨tokens ++ [eofBehind file source], diagnostics⟩ p ↔
      ∃ front piece, At source p front piece ∧ piece.hides (p - (front.flatMap text).length) := by
  constructor
  · intro interior
    cases interior with
    | @comment k hidden slash _ behind within sameLine =>
      obtain ⟨front, body, here⟩ := h.exists_comment_at hidden slash
      have starts := here.starts
      have hides : 2 ≤ p - (front.flatMap text).length := by omega
      exact ⟨front, _, here.of_same_line (by omega) within sameLine, hides⟩
    | @string t member inside =>
      rcases List.mem_append.1 member with member | eof
      · obtain ⟨front, piece, gives, here⟩ := h.exists_token_at member
        obtain ⟨q, body, rfl, -⟩ := gives.lexeme.2 inside.1
        have stops : (p : Int) < t.stop := by
          have := inside.2.2
          omega
        refine ⟨front, _, here p (Int.le_of_lt inside.2.1) stops, ?_⟩
        cases gives
        exact encloses_tokenBehind_iff.1 inside
      · cases List.mem_singleton.1 eof
        cases inside.1
    | @unclosed d member inside =>
      obtain ⟨front, piece, gives, here⟩ := h.exists_diagnostic_at member
      have within : (d.span source).1 ≤ p ∧ (p : Int) < (d.span source).2 := by
        rw [Diagnostic.span, inside.1]
        exact ⟨Int.le_of_lt inside.2.1, Int.ofNat_lt.2 inside.2.2⟩
      refine ⟨front, piece, here p within.1 within.2, ?_⟩
      cases gives with
      | unclosed q body => exact (encloses_unterminatedString_iff.1 inside).1
      | overflow => cases inside.1
      | stray => cases inside.1
  · rintro ⟨front, piece, here, hides⟩
    obtain ⟨ts, ds, gives, inTokens, inDiagnostics, -⟩ := h.gives_of_at here
    cases piece with
    | comment body =>
      have hides : 2 ≤ p - (front.flatMap text).length := hides
      exact h.interior_of_comment here (by omega)
    | quoted q body =>
      cases gives
      have member := List.mem_append_left [eofBehind file source] (inTokens List.mem_cons_self)
      exact .string member (encloses_tokenBehind_iff.2 hides)
    | unclosed q body =>
      cases gives
      have member := inDiagnostics List.mem_cons_self
      exact .unclosed member (encloses_unterminatedString_iff.2 ⟨hides, here.lt_length⟩)
    | _ => exact hides.elim

end Readings

end

end Lexis

import Lexis.Proofs.Boundaries
import Lexis.Proofs.Extents

/-!
# A diagnostic behaves like blank space

`blanked source diagnostics` is the source with a space for each character that a diagnostic is about;
line feeds stay. `scan_blanked` says that its scan gives the same tokens and no diagnostics.

The pieces of the blanked source are those of the source, with spaces and line feeds in place of each
piece that gives a diagnostic. They fit, since a space ends every piece that a faulty piece ends.
-/

namespace Lexis

/-! ### Blanking spans -/

def inSpans (spans : List (Int × Int)) (p : Nat) : Bool :=
  spans.any fun s => decide (s.1 ≤ p) && decide (p < s.2)

/-- The text, which starts at the offset `p`, with a space for each character in one of the spans
that is not a line feed. -/
def blankSpans (spans : List (Int × Int)) : Nat → List Char → List Char
  | _, [] => []
  | p, c :: cs =>
    (if c ≠ '\n' ∧ inSpans spans p = true then ' ' else c) :: blankSpans spans (p + 1) cs

/-- The source with a space for each character that a diagnostic is about. -/
def blanked (source : List Char) (diagnostics : List Diagnostic) : List Char :=
  blankSpans (diagnostics.map (Diagnostic.span source)) 0 source

/-- A line feed stays, and a space stands for any other character. -/
def blankPiece (c : Char) : Piece := if c = '\n' then .newline else .space

def blankPieces (text : List Char) : List Piece := text.map blankPiece

theorem blankSpans_append (spans : List (Int × Int)) (p : Nat) (cs ds : List Char) :
    blankSpans spans p (cs ++ ds) =
      blankSpans spans p cs ++ blankSpans spans (p + cs.length) ds := by
  induction cs generalizing p with
  | nil => rfl
  | cons c cs ih =>
    rw [List.cons_append, blankSpans, blankSpans, ih, List.length_cons, List.cons_append,
      Nat.add_assoc, Nat.add_comm 1]

theorem feeds_blankSpans (spans : List (Int × Int)) (p : Nat) (cs : List Char) :
    feeds (blankSpans spans p cs) = feeds cs := by
  induction cs generalizing p with
  | nil => rfl
  | cons c cs ih =>
    refine congrArg₂ List.cons ?_ (ih (p + 1))
    split
    · next blank => simp [blank.1]
    · rfl

theorem blankSpans_congr {spans others : List (Int × Int)} {p : Nat} {cs : List Char}
    (h : ∀ i, p ≤ i → i < p + cs.length → inSpans spans i = inSpans others i) :
    blankSpans spans p cs = blankSpans others p cs := by
  induction cs generalizing p with
  | nil => rfl
  | cons c cs ih =>
    rw [List.length_cons] at h
    rw [blankSpans, blankSpans, h p (Nat.le_refl p) (by omega),
      ih fun i low high => h i (by omega) (by omega)]

theorem blankSpans_nil (p : Nat) (cs : List Char) : blankSpans [] p cs = cs := by
  induction cs generalizing p with
  | nil => rfl
  | cons c cs ih =>
    rw [blankSpans, ih, if_neg]
    rintro ⟨-, inside⟩
    cases inside

theorem blankSpans_of_behind {spans : List (Int × Int)} {p : Nat} {cs : List Char}
    (h : ∀ s ∈ spans, ((p + cs.length : Nat) : Int) ≤ s.1) : blankSpans spans p cs = cs := by
  refine (blankSpans_congr fun i _ high => ?_).trans (blankSpans_nil p cs)
  simp only [inSpans, List.any_nil, List.any_eq_false, Bool.and_eq_true, decide_eq_true_eq]
  rintro s hs ⟨starts, -⟩
  have := h s hs
  omega

theorem blankSpans_cons_of_before {spans : List (Int × Int)} {s : Int × Int} {p : Nat}
    {cs : List Char} (stops : s.2 ≤ p) : blankSpans (s :: spans) p cs = blankSpans spans p cs := by
  refine blankSpans_congr fun i low _ => ?_
  have outside : decide ((i : Int) < s.2) = false := decide_eq_false (by omega)
  simp only [inSpans, List.any_cons, outside, Bool.and_false, Bool.false_or]

theorem blankSpans_of_inside {spans : List (Int × Int)} {s : Int × Int} {p : Nat} {cs : List Char}
    (hs : s ∈ spans) (starts : s.1 ≤ p) (stops : ((p + cs.length : Nat) : Int) ≤ s.2) :
    blankSpans spans p cs = (blankPieces cs).flatMap Piece.text := by
  induction cs generalizing p with
  | nil => rfl
  | cons c cs ih =>
    rw [List.length_cons] at stops
    have inside : inSpans spans p = true := by
      simp only [inSpans, List.any_eq_true, Bool.and_eq_true, decide_eq_true_eq]
      exact ⟨s, hs, starts, by omega⟩
    rw [blankSpans, inside, ih (by omega) (by omega)]
    by_cases feed : c = '\n'
    · simp [blankPieces, blankPiece, feed, Piece.text]
    · simp [blankPieces, blankPiece, feed, Piece.text]

theorem blankSpans_keep {spans : List (Int × Int)} {before text : List Char} (rest : List Char)
    (starts : ∀ s ∈ spans, ((before ++ text).length : Int) ≤ s.1) :
    blankSpans spans before.length (text ++ rest) =
      text ++ blankSpans spans (before ++ text).length rest := by
  rw [List.length_append] at starts ⊢
  rw [blankSpans_append, blankSpans_of_behind starts]

theorem blankSpans_cons_spanBehind (spans : List (Int × Int)) (before : List Char) (piece : Piece)
    (rest : List Char) :
    blankSpans (piece.spanBehind before :: spans) before.length (piece.text ++ rest) =
      (blankPieces piece.text).flatMap Piece.text ++
        blankSpans spans (before ++ piece.text).length rest := by
  have stops : (piece.spanBehind before).2 = ((before.length + piece.text.length : Nat) : Int) := by
    rw [← List.length_append]
    rfl
  have here : blankSpans (piece.spanBehind before :: spans) before.length piece.text =
      (blankPieces piece.text).flatMap Piece.text :=
    blankSpans_of_inside List.mem_cons_self (Int.le_refl _) (Int.le_of_eq stops.symm)
  rw [blankSpans_append, here, blankSpans_cons_of_before (Int.le_of_eq stops), List.length_append]

theorem feeds_blankPieces (text : List Char) :
    feeds ((blankPieces text).flatMap Piece.text) = feeds text := by
  have blanks : blankSpans [(0, (text.length : Int))] 0 text =
      (blankPieces text).flatMap Piece.text :=
    blankSpans_of_inside List.mem_cons_self (Int.le_refl 0) (by simp)
  rw [← blanks, feeds_blankSpans]

/-! ### Blanked text behind a piece -/

theorem Rule.of_blankSpans {text rest : List Char} {piece : Piece} (h : Rule text rest piece)
    (spans : List (Int × Int)) (p : Nat) : Rule text (blankSpans spans p rest) piece := by
  cases rest with
  | nil => exact h
  | cons c cs =>
    rw [blankSpans]
    split
    · next blank => exact h.of_space blank.1
    · exact h.of_head rfl

/-! ### Blank pieces -/

variable {config : Config} {file : String}

theorem rule_blankPiece (c : Char) (rest : List Char) :
    Rule (blankPiece c).text rest (blankPiece c) := by
  unfold blankPiece
  split
  · exact .regular .newline
  · exact .regular .space

theorem isBlank_blankPiece (c : Char) : (blankPiece c).isBlank = true := by
  unfold blankPiece
  split <;> rfl

theorem fitting_blankPieces_append (text : List Char) {pieces : List Piece} (h : Fitting pieces) :
    Fitting (blankPieces text ++ pieces) := by
  induction text with
  | nil => exact h
  | cons c cs ih => exact ⟨rule_blankPiece c _, ih⟩

theorem readings_blankPieces (before text : List Char) :
    Readings config file before (blankPieces text) [] [] := by
  refine .of_isBlank (fun piece member => ?_) before
  obtain ⟨c, -, rfl⟩ := List.mem_map.1 member
  exact isBlank_blankPiece c

/-! ### The blanked source -/

/-- **Pieces whose diagnostics are blanked give the same tokens.** The blanked pieces stand behind a
text with the line feeds of `before`. -/
theorem Readings.recover {before other source : List Char} {pieces : List Piece}
    {tokens : List Token} {diagnostics : List Diagnostic}
    (h : Readings config file before pieces tokens diagnostics) (fits : Fitting pieces)
    (whole : before ++ pieces.flatMap Piece.text = source)
    (same : feeds other = feeds before) :
    ∃ recovered, Fitting recovered ∧ Readings config file other recovered tokens [] ∧
      recovered.flatMap Piece.text =
        blankSpans (diagnostics.map (Diagnostic.span source)) before.length
          (pieces.flatMap Piece.text) := by
  induction h generalizing other with
  | done before => exact ⟨[], trivial, .done other, rfl⟩
  | @step before piece pieces ts ds tokens diagnostics gives readings ih =>
    obtain ⟨rule, fits⟩ := fits
    rw [List.flatMap_cons] at whole ⊢
    have starts := readings.le_span_fst source
    rcases gives.clean_or_fault with rfl | ⟨d, rfl, rfl⟩
    · have same' : feeds (other ++ piece.text) = feeds (before ++ piece.text) := by
        rw [feeds_append, feeds_append, same]
      obtain ⟨recovered, fits', readings', blanks⟩ := ih fits (by rwa [List.append_assoc]) same'
      refine ⟨piece :: recovered, ⟨?_, fits'⟩, .step (gives.congr same) readings', ?_⟩
      · rw [blanks]
        exact rule.of_blankSpans _ _
      · rw [List.flatMap_cons, blanks, List.nil_append, blankSpans_keep _ starts]
    · have spanned := gives.diagnostic_span rule
      rw [whole] at spanned
      have same' : feeds (other ++ (blankPieces piece.text).flatMap Piece.text) =
          feeds (before ++ piece.text) := by
        rw [feeds_append, feeds_append, same, feeds_blankPieces]
      obtain ⟨recovered, fits', readings', blanks⟩ := ih fits (by rwa [List.append_assoc]) same'
      refine ⟨blankPieces piece.text ++ recovered, fitting_blankPieces_append _ fits',
        (readings_blankPieces _ _).append readings', ?_⟩
      rw [List.flatMap_append, blanks, List.singleton_append, List.map_cons, spanned,
        blankSpans_cons_spanBehind]

/-! ### Scans -/

/-- **The scan of the blanked source** gives the tokens of the source, field by field and with the token
of the end, and no diagnostics. -/
theorem scan_blanked (config : Config) (h : config.bits ≤ Limit.maxBits) (file : Option String)
    (source : String) :
    ∃ tokens diagnostics, scan source file config = .ok ⟨tokens, diagnostics⟩ ∧
      scan (String.ofList (blanked source.toList diagnostics)) file config = .ok ⟨tokens, []⟩ := by
  obtain ⟨tokens, diagnostics, scanned, readings⟩ := scan_readings h file source
  refine ⟨_, diagnostics, scanned, ?_⟩
  obtain ⟨recovered, fits, readings', blanks⟩ :=
    readings.recover (Piece.fitting_cut _) (Piece.flatMap_text_cut _) (Eq.refl (feeds []))
  rw [Piece.flatMap_text_cut] at blanks
  have cut : Piece.cut (blanked source.toList diagnostics) = recovered :=
    Piece.cut_eq_iff.2 ⟨fits, blanks⟩
  have same : feeds (blanked source.toList diagnostics) = feeds source.toList :=
    feeds_blankSpans _ 0 source.toList
  have eof := eofBehind_congr same (config.fileName file)
  have toList : (String.ofList (blanked source.toList diagnostics)).toList =
      blanked source.toList diagnostics := String.toList_ofList
  rw [← cut, ← toList] at readings'
  have again := scan_eq_of_readings h readings'
  rwa [toList, eof] at again

/-- The fault of a stray character, of too large an integer next to a word, and of a string over two
lines that nothing closes. -/
theorem scan_blanked_standard :
    Config.standard.bits ≤ Limit.maxBits ∧
      ∃ tokens diagnostics,
        scan "a@ 99999999999b \"c\nd" none Config.standard = .ok ⟨tokens, diagnostics⟩ ∧
        scan (String.ofList (blanked "a@ 99999999999b \"c\nd".toList diagnostics)) none
          Config.standard = .ok ⟨tokens, []⟩ :=
  ⟨by decide, scan_blanked Config.standard (by decide) none "a@ 99999999999b \"c\nd"⟩

end Lexis

import Lexis.Proofs.Readings

/-!
# A scan reads the only cut of its text

`OnlyCut source pieces`: the texts of the pieces are the only cut of the source, and each of them is a
piece by one rule alone. `scan_reads_only_cut` says that every text has such pieces, and that its scan
returns exactly what they give, in their order.
-/

namespace Lexis

/-- The pieces are the only ones into which the source can be cut by the rules. -/
structure OnlyCut (source : List Char) (pieces : List Piece) : Prop where
  cut : IsCut source (pieces.map Piece.text)
  only : ∀ texts, IsCut source texts → texts = pieces.map Piece.text
  rule : ∀ before piece after, pieces = before ++ piece :: after →
    ∀ other, Rule piece.text (after.flatMap Piece.text) other ↔ other = piece

theorem onlyCut_cut (source : List Char) : OnlyCut source (Piece.cut source) where
  cut := isCut_iff.2 rfl
  only _ h := isCut_iff.1 h
  rule before piece after split other := by
    have fits := Piece.fitting_cut source
    rw [split] at fits
    have rule := fits.of_append.1
    constructor
    · exact rule.unique
    · rintro rfl
      exact rule

/-- **A text is cut in one way, and its scan returns what the pieces give**: one token for each mark,
string, word and numeral within the limit, one diagnostic for each unclosed string, each numeral
beyond the limit and each stray character, nothing for blanks and comments, and the token of the end
last. -/
theorem scan_reads_only_cut (config : Config) (h : config.bits ≤ Limit.maxBits)
    (file : Option String) (source : String) :
    ∃ pieces, OnlyCut source.toList pieces ∧
      ∃ tokens diagnostics,
        scan source file config =
          .ok ⟨tokens ++ [eofBehind (config.fileName file) source.toList], diagnostics⟩ ∧
        Readings config (config.fileName file) [] pieces tokens diagnostics :=
  ⟨Piece.cut source.toList, onlyCut_cut source.toList, scan_readings h file source⟩

theorem scan_reads_only_cut_standard :
    Config.standard.bits ≤ Limit.maxBits ∧
      ∃ pieces, OnlyCut "1abc===/ // '".toList pieces ∧
        ∃ tokens diagnostics,
          scan "1abc===/ // '" none Config.standard =
            .ok ⟨tokens ++ [eofBehind "<unknown>" "1abc===/ // '".toList], diagnostics⟩ ∧
          Readings Config.standard "<unknown>" [] pieces tokens diagnostics :=
  ⟨by decide, scan_reads_only_cut Config.standard (by decide) none "1abc===/ // '"⟩

end Lexis

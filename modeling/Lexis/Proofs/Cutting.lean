import Lexis.Proofs.Grammar

/-!
# The one way to cut a text

* `Fitting pieces`: every piece stands before the text of those behind it by a rule;
* `IsCut source texts`: the texts are not empty, make up the source, and each of them is a piece by a
  rule before the text behind it.

`cut_eq_iff` says that `Piece.cut` finds exactly the fitting pieces of a text, and `isCut_iff` that
their texts are the only way to cut it.
-/

namespace Lexis

/-- Every piece stands before the text of those behind it by a rule. -/
def Fitting : List Piece → Prop
  | [] => True
  | piece :: pieces => Rule piece.text (pieces.flatMap Piece.text) piece ∧ Fitting pieces

/-- The texts cut the source into pieces by the rules. -/
structure IsCut (source : List Char) (texts : List (List Char)) : Prop where
  whole : texts.flatten = source
  fits : ∀ before text after, texts = before ++ text :: after →
    text ≠ [] ∧ ∃ piece, Rule text after.flatten piece

/-! ### Rules determine pieces -/

theorem Rule.text_ne_nil {text rest : List Char} {piece : Piece} (h : Rule text rest piece) :
    text ≠ [] := by
  obtain ⟨c, tail, whole, found⟩ := Piece.next_of_rule h
  rw [← h.text_eq, ← found]
  exact Piece.text_next_ne_nil c tail

theorem Rule.unique {text rest : List Char} {piece other : Piece} (h : Rule text rest piece)
    (h' : Rule text rest other) : other = piece := by
  obtain ⟨c, tail, whole, found⟩ := Piece.next_of_rule h
  obtain ⟨d, cs, whole', found'⟩ := Piece.next_of_rule h'
  obtain ⟨rfl, rfl⟩ := List.cons.inj (whole.symm.trans whole')
  exact found'.symm.trans found

namespace Piece

theorem cut_append {text rest : List Char} {piece : Piece} (h : Rule text rest piece) :
    cut (text ++ rest) = piece :: cut rest := by
  obtain ⟨c, tail, whole, found⟩ := next_of_rule h
  rw [whole, cut, found, h.text_eq, ← whole, List.drop_left]

theorem fitting_cut (source : List Char) : Fitting (cut source) := by
  fun_induction cut source with
  | case1 => trivial
  | case2 c rest ih =>
    refine ⟨rule_next ?_, ih⟩
    rw [flatMap_text_cut]
    exact List.prefix_iff_eq_append.1 (text_next_isPrefix c rest)

theorem cut_flatMap_text {pieces : List Piece} (h : Fitting pieces) :
    cut (pieces.flatMap text) = pieces := by
  induction pieces with
  | nil => simp [cut]
  | cons piece pieces ih => rw [List.flatMap_cons, cut_append h.1, ih h.2]

/-- **Cutting finds exactly the fitting pieces of a text.** -/
theorem cut_eq_iff {source : List Char} {pieces : List Piece} :
    cut source = pieces ↔ Fitting pieces ∧ pieces.flatMap text = source := by
  constructor
  · rintro rfl
    exact ⟨fitting_cut source, flatMap_text_cut source⟩
  · rintro ⟨fits, rfl⟩
    exact cut_flatMap_text fits

end Piece

/-! ### Cuts of a text -/

theorem Fitting.of_append {before after : List Piece} (h : Fitting (before ++ after)) :
    Fitting after := by
  induction before with
  | nil => exact h
  | cons piece before ih => exact ih h.2

theorem isCut_of_fitting {pieces : List Piece} (h : Fitting pieces) :
    IsCut (pieces.flatMap Piece.text) (pieces.map Piece.text) where
  whole := List.flatMap_def.symm
  fits before text after split := by
    obtain ⟨front, back, rfl, rfl, shape⟩ := List.map_eq_append_iff.1 split
    obtain ⟨piece, behind, rfl, rfl, rfl⟩ := List.map_eq_cons_iff.1 shape
    have rule := h.of_append.1
    rw [List.flatMap_def] at rule
    exact ⟨rule.text_ne_nil, piece, rule⟩

theorem IsCut.tail {source text : List Char} {texts : List (List Char)}
    (h : IsCut source (text :: texts)) : IsCut texts.flatten texts where
  whole := rfl
  fits before next after split := h.fits (text :: before) next after (by rw [split]; rfl)

theorem IsCut.eq_map_text {source : List Char} {texts : List (List Char)} (h : IsCut source texts) :
    texts = (Piece.cut source).map Piece.text := by
  induction texts generalizing source with
  | nil =>
    rw [← h.whole, List.flatten_nil, Piece.cut]
    rfl
  | cons text texts ih =>
    obtain ⟨_, piece, rule⟩ := h.fits [] text texts rfl
    rw [← h.whole, List.flatten_cons, Piece.cut_append rule, List.map_cons, rule.text_eq,
      ← ih h.tail]

/-- **There is one way to cut a text**, and it is that into its pieces. -/
theorem isCut_iff {source : List Char} {texts : List (List Char)} :
    IsCut source texts ↔ texts = (Piece.cut source).map Piece.text := by
  refine ⟨IsCut.eq_map_text, ?_⟩
  rintro rfl
  have := isCut_of_fitting (Piece.fitting_cut source)
  rwa [Piece.flatMap_text_cut] at this

end Lexis

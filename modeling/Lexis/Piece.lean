import Lexis.Alphabet
import Lexis.Kind

/-!
The cutting of a text into pieces. A piece is the longest stretch of characters that belongs
together: a mark, a comment, a string, a blank, a numeral, a word, or a single character that starts
none of these. Which of them it is depends on its first character, by `Start.ofChar`, and where it
ends on the text behind. `Piece.next` takes the first piece of a text and `Piece.cut` all of them;
the texts of the pieces in order are the whole text (`flatMap_text_cut`).
-/

namespace Lexis

/-! ### The first character -/

/-- What a piece can be, by its first character. -/
inductive Start
  /-- A mark of this one character. -/
  | solo (mark : Mark)
  /-- A mark of this one character, or of two if an equals sign follows. -/
  | pair (bare paired : Mark)
  /-- A mark, or a comment if a second slash follows. -/
  | slash
  | quote (quote : Quote)
  | space
  | newline
  | digit
  | letter
  /-- Nothing that is longer than the character. -/
  | nothing
  deriving DecidableEq

/-- What a piece that starts with `c` can be. -/
def Start.ofChar (c : Char) : Start :=
  match Mark.solo? c with
  | some m => solo m
  | none =>
    match Mark.pair? c with
    | some (bare, paired) => pair bare paired
    | none =>
      match Quote.ofChar? c with
      | some q => quote q
      | none =>
        if c = '/' then slash
        else if c = ' ' then space
        else if c = '\n' then newline
        else if c.isDigit then digit
        else if isWordStart c then letter
        else nothing

/-- What the answer says of the character. -/
def Start.Describes (c : Char) : Start → Prop
  | solo m => m.spelling = [c]
  | pair bare paired => bare.spelling = [c] ∧ paired.spelling = [c, '=']
  | slash => c = '/'
  | quote q => c = q.char
  | space => c = ' '
  | newline => c = '\n'
  | digit => c.isDigit = true
  | letter => isWordStart c = true
  | nothing => c.isDigit = false ∧ isWordStart c = false

theorem Start.ofChar_describes (c : Char) : (ofChar c).Describes c := by
  unfold ofChar
  split
  · next h => exact Mark.spelling_of_solo? h
  · split
    · next h => exact Mark.spelling_of_pair? h
    · split
      · next h => exact (Quote.char_of_ofChar? h).symm
      · repeat' split
        all_goals simp_all [Describes]

/-! ### Pieces -/

/-- A stretch of a text that belongs together. -/
inductive Piece
  | mark (mark : Mark)
  /-- A comment, with what follows the two slashes. It ends before the line feed. -/
  | comment (body : List Char)
  /-- A string between two quotes. -/
  | quoted (quote : Quote) (body : List Char)
  /-- A string whose quote is not closed, up to the end of the text. -/
  | unclosed (quote : Quote) (body : List Char)
  | space
  | newline
  /-- A run of digits. -/
  | numeral (digits : List Char)
  /-- A letter or underscore, with the letters, underscores and digits after it. -/
  | word (spelling : List Char)
  /-- A character that starts nothing else. -/
  | stray (char : Char)
  deriving DecidableEq

namespace Piece

def text : Piece → List Char
  | mark m => m.spelling
  | comment body => '/' :: '/' :: body
  | quoted q body => q.char :: (body ++ [q.char])
  | unclosed q body => q.char :: body
  | space => [' ']
  | newline => ['\n']
  | numeral digits => digits
  | word spelling => spelling
  | stray c => [c]

/-- The piece that a slash starts: a second slash makes it a comment. -/
def ofSlash : List Char → Piece
  | '/' :: rest => comment (rest.takeWhile (· ≠ '\n'))
  | _ => mark .slash

/-- The piece that a quote starts: it goes on to the next quote of the same kind. -/
def ofQuote (q : Quote) (rest : List Char) : Piece :=
  let body := rest.takeWhile (· ≠ q.char)
  match rest.dropWhile (· ≠ q.char) with
  | [] => unclosed q body
  | _ :: _ => quoted q body

/-- The first piece of a text that starts with `c` and goes on with `rest`. -/
def next (c : Char) (rest : List Char) : Piece :=
  match Start.ofChar c with
  | .solo m => mark m
  | .pair bare paired => mark (if rest.head? = some '=' then paired else bare)
  | .slash => ofSlash rest
  | .quote q => ofQuote q rest
  | .space => space
  | .newline => newline
  | .digit => numeral (c :: rest.takeWhile Char.isDigit)
  | .letter => word (c :: rest.takeWhile isWordChar)
  | .nothing => stray c

/-! ### A piece starts the text -/

theorem text_ofSlash_isPrefix (rest : List Char) : (ofSlash rest).text <+: '/' :: rest := by
  unfold ofSlash
  split
  · exact (List.prefix_cons_inj _).2 ((List.prefix_cons_inj _).2 (List.takeWhile_prefix _))
  · exact ⟨rest, rfl⟩

theorem text_ofQuote_isPrefix (q : Quote) (rest : List Char) :
    (ofQuote q rest).text <+: q.char :: rest := by
  have whole := List.takeWhile_append_dropWhile (p := (· ≠ q.char)) (l := rest)
  unfold ofQuote
  dsimp only
  split
  · exact (List.prefix_cons_inj _).2 (List.takeWhile_prefix _)
  · next d behind h =>
    have closing : d = q.char := by
      have := List.head?_dropWhile_not (· ≠ q.char) rest
      rw [h] at this
      simpa using this
    rw [h, closing] at whole
    refine (List.prefix_cons_inj _).2 ⟨behind, ?_⟩
    rw [List.append_assoc]
    exact whole

theorem text_next_isPrefix (c : Char) (rest : List Char) : (next c rest).text <+: c :: rest := by
  have describes := Start.ofChar_describes c
  revert describes
  unfold next
  cases Start.ofChar c with
  | solo m =>
    intro (one : m.spelling = [c])
    exact ⟨rest, by rw [text, one]; rfl⟩
  | pair bare paired =>
    rintro ⟨one, two⟩
    dsimp only
    split
    · next equals =>
      obtain ⟨behind, rfl⟩ := List.head?_eq_some_iff.1 equals
      exact ⟨behind, by rw [text, two]; rfl⟩
    · exact ⟨rest, by rw [text, one]; rfl⟩
  | slash =>
    rintro rfl
    exact text_ofSlash_isPrefix rest
  | quote q =>
    rintro rfl
    exact text_ofQuote_isPrefix q rest
  | space =>
    rintro rfl
    exact ⟨rest, rfl⟩
  | newline =>
    rintro rfl
    exact ⟨rest, rfl⟩
  | digit => exact fun _ => (List.prefix_cons_inj _).2 (List.takeWhile_prefix _)
  | letter => exact fun _ => (List.prefix_cons_inj _).2 (List.takeWhile_prefix _)
  | nothing => exact fun _ => ⟨rest, rfl⟩

theorem text_next_ne_nil (c : Char) (rest : List Char) : (next c rest).text ≠ [] := by
  unfold next
  split
  · exact Mark.spelling_ne_nil _
  · exact Mark.spelling_ne_nil _
  · unfold ofSlash
    split <;> exact List.cons_ne_nil _ _
  · unfold ofQuote
    dsimp only
    split <;> exact List.cons_ne_nil _ _
  all_goals exact List.cons_ne_nil _ _

/-! ### All pieces -/

/-- All pieces of a text, from left to right. -/
def cut : List Char → List Piece
  | [] => []
  | c :: rest => next c rest :: cut ((c :: rest).drop (next c rest).text.length)
termination_by source => source.length
decreasing_by
  have := List.length_pos_iff.2 (text_next_ne_nil c rest)
  simp only [List.length_drop, List.length_cons]
  omega

/-- Cutting loses nothing: the texts of the pieces make up the text again. -/
theorem flatMap_text_cut (source : List Char) : (cut source).flatMap text = source := by
  fun_induction cut source with
  | case1 => rfl
  | case2 c rest ih =>
    rw [List.flatMap_cons, ih]
    exact (List.prefix_iff_eq_append.1 (text_next_isPrefix c rest))

end Piece

end Lexis

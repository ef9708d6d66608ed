/-!
The characters that rule the cutting of a text: what starts a word, what continues it, and the two
quotes. All classes are of ASCII characters alone; digits are `Char.isDigit`. `IsWord` says when a
spelling is a word.
-/

namespace Lexis

/-! ### Words -/

/-- A word starts with an ASCII letter or an underscore. -/
def isWordStart (c : Char) : Bool := c.isAlpha || c = '_'

/-- A word goes on with ASCII letters, digits and underscores. -/
def isWordChar (c : Char) : Bool := isWordStart c || c.isDigit

/-- The spelling is a word: it starts like one and goes on like one, and is not empty. -/
def IsWord : List Char → Prop
  | [] => False
  | c :: cs => isWordStart c = true ∧ cs.all isWordChar = true

instance : DecidablePred IsWord
  | [] => inferInstanceAs (Decidable False)
  | c :: cs => inferInstanceAs (Decidable (isWordStart c = true ∧ cs.all isWordChar = true))

theorem isWordChar_of_isWordStart {c : Char} (h : isWordStart c = true) : isWordChar c = true := by
  simp [isWordChar, h]

/-! ### Quotes -/

/-- The two characters that open a string; the same one closes it. -/
inductive Quote
  | single
  | double
  deriving DecidableEq

namespace Quote

def char : Quote → Char
  | single => '\''
  | double => '"'

/-- The quote that a character is, if it is one. -/
def ofChar? (c : Char) : Option Quote :=
  if c = single.char then some single else if c = double.char then some double else none

theorem ofChar?_char (q : Quote) : ofChar? q.char = some q := by cases q <;> decide

theorem char_ne_newline (q : Quote) : q.char ≠ '\n' := by cases q <;> decide

theorem char_of_ofChar? {c : Char} {q : Quote} (h : ofChar? c = some q) : q.char = c := by
  unfold ofChar? at h
  split at h
  · next hc => cases h; exact hc.symm
  · split at h
    · next hc => cases h; exact hc.symm
    · cases h

end Quote

end Lexis

import Lexis.Proofs.Readings

/-!
# What diagnostics say is printable

* `Text.Printable s`: all characters of the text are printable; in particular none is a line feed;
* `d.Printable`: so are the message, the help and the suggestions of the diagnostic.

A text between quotes is printable whatever it holds (`Text.printable_quoted`), and so are numerals and
the names of code points. So every diagnostic of a scan is printable (`Gives.printable`), and each has a
help (`Gives.exists_help`).
-/

namespace Lexis

namespace Text

/-- All characters of the text are printable. -/
def Printable (s : String) : Prop := ∀ c ∈ s.toList, isPrintable c = true

instance (s : String) : Decidable (Printable s) :=
  decidable_of_iff (s.toList.all isPrintable = true) List.all_eq_true

@[simp] theorem printable_append {s t : String} :
    Printable (s ++ t) ↔ Printable s ∧ Printable t := by
  rw [Printable, String.toList_append, List.forall_mem_append]
  rfl

theorem printable_ofList {cs : List Char} :
    Printable (String.ofList cs) ↔ ∀ c ∈ cs, isPrintable c = true := by
  rw [Printable, String.toList_ofList]

theorem Printable.between {front s back : String} (h : Printable s) (before : Printable front)
    (behind : Printable back) : Printable (front ++ s ++ back) :=
  printable_append.2 ⟨printable_append.2 ⟨before, h⟩, behind⟩

theorem Printable.newline_not_mem {s : String} (h : Printable s) : '\n' ∉ s.toList :=
  fun member => absurd (h '\n' member) (by decide)

theorem Printable.intercalate {separator : String} {parts : List String}
    (between : Printable separator) (all : ∀ s ∈ parts, Printable s) :
    Printable (separator.intercalate parts) := by
  induction parts with
  | nil => exact List.forall_mem_nil _
  | cons s parts ih =>
    obtain ⟨first, others⟩ := List.forall_mem_cons.1 all
    cases parts with
    | nil => rwa [String.intercalate_singleton]
    | cons t parts =>
      rw [String.intercalate_cons_cons, printable_append, printable_append]
      exact ⟨⟨first, between⟩, ih others⟩

/-! ### Numbers and quoted texts -/

theorem isPrintable_of_isDigit {c : Char} (h : c.isDigit = true) : isPrintable c = true := by
  have low : 48 ≤ c.toNat := (Char.isDigit_iff_toNat.1 h).1
  have high : c.toNat ≤ 57 := (Char.isDigit_iff_toNat.1 h).2
  exact isPrintable_of_ascii (by omega) (by omega)

theorem printable_ofNat (n : Nat) : Printable (Decimal.ofNat n) :=
  printable_ofList.2 fun _ member =>
    isPrintable_of_isDigit (Nat.isDigit_of_mem_toDigits (by decide) (by decide) member)

theorem printable_ofInt : ∀ n : Int, Printable (Decimal.ofInt n)
  | .ofNat n => printable_ofNat n
  | .negSucc n => printable_append.2 ⟨by decide, printable_ofNat (n + 1)⟩

namespace Hex

theorem isPrintable_fixed {digit : Nat → Char} (digits : ∀ k < 16, isPrintable (digit k) = true)
    (width n : Nat) : ∀ c ∈ fixed digit width n, isPrintable c = true := by
  induction width generalizing n with
  | zero => exact List.forall_mem_nil _
  | succ width ih =>
    refine List.forall_mem_append.2 ⟨ih (n / 16), List.forall_mem_singleton.2 ?_⟩
    exact digits (n % 16) (Nat.mod_lt n (by decide))

theorem isPrintable_lower : ∀ k < 16, isPrintable (lower k) = true := by decide

theorem isPrintable_upper : ∀ k < 16, isPrintable (upper k) = true := by decide

theorem isPrintable_codePoint (c : Char) : ∀ d ∈ codePoint c, isPrintable d = true := by
  refine List.forall_mem_cons.2 ⟨by decide, List.forall_mem_cons.2 ⟨by decide, ?_⟩⟩
  exact isPrintable_fixed isPrintable_upper _ _

end Hex

theorem isPrintable_quote (q : Quote) : isPrintable q.char = true := by
  cases q <;> decide

theorem isPrintable_escape (q : Quote) (c : Char) : ∀ d ∈ escape q c, isPrintable d = true := by
  have backslash : isPrintable '\\' = true := by decide
  have numbered (letter : Char) (plain : isPrintable letter = true) (width : Nat) :
      ∀ d ∈ '\\' :: letter :: Hex.fixed Hex.lower width c.toNat, isPrintable d = true :=
    List.forall_mem_cons.2 ⟨backslash, List.forall_mem_cons.2 ⟨plain,
      Hex.isPrintable_fixed Hex.isPrintable_lower width _⟩⟩
  unfold escape
  split
  · next special =>
    have itself : isPrintable c = true := by
      rcases special with rfl | rfl
      · exact backslash
      · exact isPrintable_quote q
    exact List.forall_mem_cons.2 ⟨backslash, List.forall_mem_singleton.2 itself⟩
  split
  · exact List.all_eq_true.1 (by decide)
  split
  · exact List.all_eq_true.1 (by decide)
  split
  · exact List.all_eq_true.1 (by decide)
  split
  · next itself => exact List.forall_mem_singleton.2 itself
  split
  · exact numbered 'x' (by decide) 2
  split
  · exact numbered 'u' (by decide) 4
  · exact numbered 'U' (by decide) 8

/-- **A text between quotes is printable**, whatever it holds. -/
theorem printable_quoted (s : String) : Printable (quoted s) := by
  refine printable_ofList.2 (List.forall_mem_cons.2 ⟨isPrintable_quote _, ?_⟩)
  refine List.forall_mem_append.2 ⟨fun d member => ?_, List.forall_mem_singleton.2 (isPrintable_quote _)⟩
  obtain ⟨c, -, escaped⟩ := List.mem_flatMap.1 member
  exact isPrintable_escape _ c d escaped

end Text

/-! ### The texts of a diagnostic -/

namespace Diagnostic

/-- All that the diagnostic says is printable. -/
structure Printable (d : Diagnostic) : Prop where
  message : Text.Printable d.message
  help : ∀ help ∈ d.help, Text.Printable help
  suggestions : ∀ s ∈ d.suggestions.getD [], Text.Printable s

theorem printable_describe (c : Char) : Text.Printable (describe c) := by
  unfold describe
  split
  · next itself =>
    refine Text.printable_ofList.2 (List.forall_mem_cons.2 ⟨by decide, ?_⟩)
    exact List.forall_mem_cons.2 ⟨itself, List.forall_mem_singleton.2 (by decide)⟩
  · exact Text.printable_ofList.2 (Text.Hex.isPrintable_codePoint c)

theorem printable_alternatives (operator : String) :
    ∀ s ∈ alternatives operator, Text.Printable s := by
  unfold alternatives
  repeat' split
  all_goals decide

theorem printable_characterHelp (c : Char) : Text.Printable (characterHelp c) := by
  unfold characterHelp
  split
  · repeat' split
    · exact (printable_describe c).between (by decide) (by decide)
    · decide
    · exact (printable_describe c).between (by decide) (by decide)
  · split
    · decide
    · have all : ∀ s ∈ (alternatives c.toString).map Text.quoted, Text.Printable s := by
        intro s member
        obtain ⟨spelling, -, rfl⟩ := List.mem_map.1 member
        exact Text.printable_quoted spelling
      have listed : Text.Printable (" or ".intercalate ((alternatives c.toString).map Text.quoted)) :=
        .intercalate (by decide) all
      exact listed.between (by decide) (by decide)

theorem getD_suggestions (c : Char) (location : Location) :
    (unexpectedCharacter c location).suggestions.getD [] = alternatives c.toString := by
  unfold unexpectedCharacter
  dsimp only
  split
  · next none => exact none.symm
  · rfl

theorem Printable.unexpectedCharacter (c : Char) (location : Location) :
    (unexpectedCharacter c location).Printable where
  message := Text.printable_append.2 ⟨by decide, printable_describe c⟩
  help := by
    rintro _ ⟨⟩
    exact printable_characterHelp c
  suggestions := by
    rw [getD_suggestions]
    exact printable_alternatives _

theorem Printable.unterminatedString {quote : String} (h : Text.Printable quote)
    (location : Location) : (unterminatedString quote location).Printable where
  message := (by decide : Text.Printable "Unterminated string")
  help := by
    rintro _ ⟨⟩
    exact h.between (by decide) (by decide)
  suggestions := List.forall_mem_singleton.2 (h.between (by decide) (by decide))

theorem Printable.numericOverflow {lexeme : String} (h : Text.Printable lexeme) (limit : Int)
    (location : Location) : (numericOverflow lexeme limit location).Printable where
  message := h.between (by decide) (by decide)
  help := by
    rintro _ ⟨⟩
    exact (Text.printable_ofInt limit).between (by decide) (by decide)
  suggestions := List.forall_mem_nil _

theorem characterHelp_ne_empty (c : Char) : characterHelp c ≠ "" := by
  unfold characterHelp
  split
  · repeat' split
    all_goals simp [String.append_eq_empty_iff]
  · split
    all_goals simp [String.append_eq_empty_iff]

end Diagnostic

variable {config : Config} {file : String} {before rest : List Char} {piece : Piece} {d : Diagnostic}

/-- **A diagnostic of a scan is printable.** -/
theorem Gives.printable (h : Gives config file before piece [] [d])
    (rule : Rule piece.text rest piece) : d.Printable := by
  cases h with
  | unclosed q body =>
    have quote : Text.Printable q.char.toString := by cases q <;> decide
    exact .unterminatedString quote _
  | overflow digits _ =>
    have digits := List.all_eq_true.1 rule.of_numeral.1
    have lexeme := Text.printable_ofList.2 fun c hc => Text.isPrintable_of_isDigit (digits c hc)
    exact .numericOverflow lexeme _ _
  | stray c => exact .unexpectedCharacter c _

theorem Gives.exists_help (h : Gives config file before piece [] [d]) :
    ∃ help, d.help = some help ∧ help ≠ "" := by
  cases h with
  | unclosed q body => exact ⟨_, rfl, by simp [String.append_eq_empty_iff]⟩
  | overflow digits _ => exact ⟨_, rfl, by simp [String.append_eq_empty_iff]⟩
  | stray c => exact ⟨_, rfl, Diagnostic.characterHelp_ne_empty c⟩

end Lexis

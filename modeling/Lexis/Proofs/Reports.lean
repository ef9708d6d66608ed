import Lexis.Proofs.Carets
import Mathlib.Algebra.Group.Nat.Defs

/-!
# The lines of a report

`d.ReportsIn lines`: the full report of the diagnostic is made of just these lines, three of them and those
of the suggestions.

What a diagnostic says is printable, so nothing of the source breaks a line of its report
(`Diagnostic.reportsIn_reportLines`). A message gives a character as it is or by the name of its code
point, and one character alone has this message (`Diagnostic.describe_injective`): the names are numerals
of as many digits as their number needs. `scan_reports_printable` puts both together.
-/

namespace Lexis

/-! ### Names of code points -/

namespace Text.Hex

theorem fixed_injective {digit : Nat → Char}
    (digits : ∀ i < 16, ∀ j < 16, digit i = digit j → i = j) {width m n : Nat}
    (hm : m < 16 ^ width) (hn : n < 16 ^ width)
    (same : fixed digit width m = fixed digit width n) : m = n := by
  induction width generalizing m n with
  | zero => omega
  | succ width ih =>
    obtain ⟨front, last⟩ := List.append_inj' same rfl
    rw [Nat.pow_succ] at hm hn
    have high : m / 16 = n / 16 :=
      ih (Nat.div_lt_of_lt_mul (by omega)) (Nat.div_lt_of_lt_mul (by omega)) front
    have low : m % 16 = n % 16 :=
      digits _ (Nat.mod_lt m (by decide)) _ (Nat.mod_lt n (by decide)) (List.singleton_inj.1 last)
    omega

theorem upper_injective : ∀ i < 16, ∀ j < 16, upper i = upper j → i = j := by decide

theorem exists_codePoint (c : Char) :
    ∃ width, codePoint c = 'U' :: '+' :: fixed upper width c.toNat ∧ c.toNat < 16 ^ width := by
  have valid : c.toNat < 0xD800 ∨ 0xDFFF < c.toNat ∧ c.toNat < 0x110000 := c.valid
  unfold codePoint
  dsimp only
  split
  · next small => exact ⟨4, rfl, small⟩
  split
  · next middling => exact ⟨5, rfl, middling⟩
  · exact ⟨6, rfl, by omega⟩

/-- **No two characters have the same name.** -/
theorem codePoint_injective {c d : Char} (same : codePoint c = codePoint d) : c = d := by
  obtain ⟨width, named, small⟩ := exists_codePoint c
  obtain ⟨width', named', small'⟩ := exists_codePoint d
  rw [named, named', List.cons_inj_right, List.cons_inj_right] at same
  have widths := congrArg List.length same
  rw [length_fixed, length_fixed] at widths
  subst widths
  exact Char.toNat_inj.1 (fixed_injective upper_injective small small' same)

end Text.Hex

namespace Diagnostic

/-! ### The character of a message -/

/-- **A description fits one character alone.** One of a printable character starts with a quote, and a
name with a letter. -/
theorem describe_injective {c d : Char} (same : describe c = describe d) : c = d := by
  unfold describe at same
  by_cases shown : Text.isPrintable c = true <;> by_cases shown' : Text.isPrintable d = true
  · rw [if_pos shown, if_pos shown', String.ofList_inj] at same
    exact (List.cons.inj (List.cons.inj same).2).1
  · rw [if_pos shown, if_neg shown', String.ofList_inj] at same
    exact absurd (List.cons.inj same).1 (by decide)
  · rw [if_neg shown, if_pos shown', String.ofList_inj] at same
    exact absurd (List.cons.inj same).1 (by decide)
  · rw [if_neg shown, if_neg shown', String.ofList_inj] at same
    exact Text.Hex.codePoint_injective same

/-! ### The lines of a report -/

/-- **The full report is these lines**, each closed by its line feed: header, place and help, and if there
are suggestions, a heading and a line for each. -/
structure ReportsIn (d : Diagnostic) (lines : List String) : Prop where
  report : d.report = Text.unlines lines
  unbroken : ∀ line ∈ lines, '\n' ∉ line.toList
  count : lines.length =
    if d.suggestions.getD [] = [] then 3 else 3 + (1 + (d.suggestions.getD []).length)

variable {d : Diagnostic}

theorem newline_not_mem_text {location : Location} (plain : '\n' ∉ location.file.toList) :
    '\n' ∉ location.text.toList := by
  have line := (Text.printable_ofInt location.line).newline_not_mem
  have column := (Text.printable_ofInt location.column).newline_not_mem
  simp [Location.text, plain, line, column]

theorem newline_not_mem_suggestionLines (printable : d.Printable) :
    ∀ line ∈ d.suggestionLines, '\n' ∉ line.toList := by
  have all := printable.suggestions
  unfold suggestionLines
  split
  · exact List.forall_mem_nil _
  · exact List.forall_mem_nil _
  · next suggestions found =>
    rw [found] at all
    refine List.forall_mem_cons.2 ⟨by decide, fun line member => ?_⟩
    obtain ⟨s, listed, rfl⟩ := List.mem_map.1 member
    exact Text.Printable.newline_not_mem (Text.printable_append.2 ⟨by decide, all s listed⟩)

theorem length_suggestionLines (d : Diagnostic) : d.suggestionLines.length =
    if d.suggestions.getD [] = [] then 0 else 1 + (d.suggestions.getD []).length := by
  unfold suggestionLines
  rcases d.suggestions with _ | _ | ⟨s, suggestions⟩
  · rfl
  · rfl
  · simp [Nat.add_comm]

/-- **A printable diagnostic is reported in three lines and those of its suggestions.** -/
theorem reportsIn_reportLines {help : String} (severity : d.severity = "error")
    (helps : d.help = some help) (some : help ≠ "") (printable : d.Printable)
    (plain : '\n' ∉ d.location.file.toList) : d.ReportsIn d.reportLines where
  report := rfl
  unbroken := by
    have upper : "error".toUpper = "ERROR" := by decide +kernel
    have code : Text.Printable d.fault.code := by
      cases d.fault <;> decide
    have header : Text.Printable ("ERROR[" ++ d.fault.code ++ "]: " ++ d.message) :=
      Text.printable_append.2 ⟨code.between (by decide) (by decide), printable.message⟩
    have helped : Text.Printable ("  help: " ++ help) :=
      Text.printable_append.2 ⟨by decide, printable.help help helps⟩
    have arrow : '\n' ∉ ("  --> " ++ d.location.text).toList := by
      rw [String.toList_append, List.mem_append, not_or]
      exact ⟨by decide, newline_not_mem_text plain⟩
    rw [reportLines, helpLines_eq helps some, severity, upper]
    refine List.forall_mem_append.2 ⟨?_, newline_not_mem_suggestionLines printable⟩
    exact List.forall_mem_cons.2 ⟨header.newline_not_mem, List.forall_mem_cons.2 ⟨arrow,
      List.forall_mem_singleton.2 helped.newline_not_mem⟩⟩
  count := by
    rw [reportLines, helpLines_eq helps some, List.length_append, length_suggestionLines]
    split
    · rfl
    · rfl

end Diagnostic

/-! ### Scans -/

theorem Gives.file_eq {config : Config} {file : String} {before : List Char} {piece : Piece}
    {d : Diagnostic} (h : Gives config file before piece [] [d]) : d.location.file = file := by
  rw [h.diagnostic_location]
  rfl

end Lexis

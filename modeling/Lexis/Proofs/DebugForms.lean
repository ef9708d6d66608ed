import Lexis.Proofs.Delimiting
import Lexis.Token

/-!
# The debug form of a token

Each part of the debug form shows where it ends, whatever it holds: the name of the kind, which has no
comma, the lexeme, which stands between quotes, the payload (`Literal.selfDelimiting_payload`) and the
place (`Location.selfDelimiting_debug`). So all of them can be told from the form, and only the end of
the token cannot (`Token.debug_eq_iff`). Both forms of a token are printable, since texts are shown
between quotes alone. `Token.debug_unambiguous` puts this together.
-/

namespace Lexis

/-! ### Kinds -/

namespace Kind

theorem name_injective : Function.Injective name := by
  intro k l same
  have both := congrArg ofName same
  rw [ofName_name, ofName_name] at both
  exact Except.ok.inj both

theorem comma_not_mem_name (kind : Kind) : ',' ∉ kind.name.toList := by
  have each : ∀ k ∈ all, ',' ∉ k.name.toList := by decide
  exact each kind (mem_all kind)

theorem endedBy_name : EndedBy ',' fun kind : Kind => kind.name.toList :=
  .of_not_mem (fun _ _ same => name_injective (String.toList_inj.1 same)) comma_not_mem_name

theorem printable_name (kind : Kind) : Text.Printable kind.name := by
  have each : ∀ k ∈ all, Text.Printable k.name := by decide
  exact each kind (mem_all kind)

end Kind

/-! ### Payloads -/

namespace Literal

theorem toList_debug_integer (value : Int) : (integer value).debug.toList =
    "IntLiteral(value=".toList ++ ((Decimal.ofInt value).toList ++ [')']) := by
  have written : (integer value).debug = "IntLiteral(value=" ++ Decimal.ofInt value ++ ")" := rfl
  simp [written]

theorem toList_debug_text (value : String) : (text value).debug.toList =
    "StrLiteral(value=".toList ++ ((Text.quoted value).toList ++ [')']) := by
  have written : (text value).debug = "StrLiteral(value=" ++ Text.quoted value ++ ")" := rfl
  simp [written]

/-- The payload shows where it ends, also where there is none: its first letter tells the three sorts. -/
theorem selfDelimiting_payload :
    SelfDelimiting fun payload : Option Literal => ((payload.map debug).getD "None").toList := by
  intro payload payload' r s same
  rcases payload with _ | value | value <;> rcases payload' with _ | value' | value'
  case none.none => simpa using same
  case some.integer.some.integer =>
    simp only [Option.map_some, Option.getD_some, toList_debug_integer, List.append_assoc,
      List.append_cancel_left_eq] at same
    obtain ⟨rfl, behind⟩ := Decimal.endedBy_ofInt (by decide) (by decide) same
    exact ⟨rfl, behind⟩
  case some.text.some.text =>
    simp only [Option.map_some, Option.getD_some, toList_debug_text, List.append_assoc,
      List.append_cancel_left_eq] at same
    obtain ⟨rfl, behind⟩ := Text.selfDelimiting_quoted same
    exact ⟨rfl, List.append_cancel_left behind⟩
  all_goals simp [toList_debug_integer, toList_debug_text] at same

theorem printable_shown (literal : Literal) : Text.Printable literal.shown := by
  cases literal with
  | integer value => exact Text.printable_ofInt value
  | text value => exact Text.printable_quoted value

theorem printable_payload (payload : Option Literal) :
    Text.Printable ((payload.map debug).getD "None") := by
  rcases payload with _ | value | value
  · decide
  · exact (Text.printable_ofInt value).between (by decide) (by decide)
  · exact (Text.printable_quoted value).between (by decide) (by decide)

end Literal

/-! ### Places -/

namespace Location

theorem debug_eq (l : Location) : l.debug =
    "SourceLocation(" ++ Text.quoted l.file ++ ", " ++ Decimal.ofInt l.line ++ ", " ++
      Decimal.ofInt l.column ++ ", " ++ Decimal.ofInt l.offset ++ ")" := rfl

theorem toList_debug (l : Location) : l.debug.toList =
    "SourceLocation(".toList ++ ((Text.quoted l.file).toList ++
      ',' :: ' ' :: ((Decimal.ofInt l.line).toList ++
        ',' :: ' ' :: ((Decimal.ofInt l.column).toList ++
          ',' :: ' ' :: ((Decimal.ofInt l.offset).toList ++ [')'])))) := by
  simp [debug_eq]

/-- **The debug form of a place shows where it ends**, and all of the place. -/
theorem selfDelimiting_debug :
    SelfDelimiting fun location : Location => location.debug.toList := by
  intro l m r s same
  have comma : EndedBy ',' fun n : Int => (Decimal.ofInt n).toList :=
    Decimal.endedBy_ofInt (by decide) (by decide)
  have bracket : EndedBy ')' fun n : Int => (Decimal.ofInt n).toList :=
    Decimal.endedBy_ofInt (by decide) (by decide)
  simp only [toList_debug, List.append_assoc, List.cons_append, List.append_cancel_left_eq] at same
  obtain ⟨file, same⟩ := Text.selfDelimiting_quoted same
  simp only [List.cons.injEq, true_and] at same
  obtain ⟨line, same⟩ := comma same
  obtain ⟨column, same⟩ := comma (List.cons.inj same).2
  obtain ⟨offset, behind⟩ := bracket (List.cons.inj same).2
  exact ⟨(Location.mk.injEq ..).mpr ⟨file, line, column, offset⟩, behind⟩

theorem printable_debug (l : Location) : Text.Printable l.debug := by
  simp only [debug_eq, Text.printable_append, Text.printable_quoted, Text.printable_ofInt, and_true]
  decide

end Location

/-! ### Tokens -/

namespace Token

theorem debug_eq (t : Token) : t.debug =
    "Token(" ++ t.kind.name ++ ", " ++ Text.quoted t.lexeme ++ ", " ++
      (t.payload.map Literal.debug).getD "None" ++ ", " ++ t.location.debug ++ ")" := rfl

theorem toList_debug (t : Token) : t.debug.toList =
    "Token(".toList ++ (t.kind.name.toList ++
      ',' :: ' ' :: ((Text.quoted t.lexeme).toList ++
        ',' :: ' ' :: (((t.payload.map Literal.debug).getD "None").toList ++
          ',' :: ' ' :: (t.location.debug.toList ++ [')'])))) := by
  simp [debug_eq]

/-- **The debug form shows all of a token but its end.** -/
theorem debug_eq_iff {t u : Token} : t.debug = u.debug ↔
    t.kind = u.kind ∧ t.lexeme = u.lexeme ∧ t.payload = u.payload ∧ t.location = u.location := by
  constructor
  · intro same
    rw [← String.toList_inj, toList_debug, toList_debug, List.append_cancel_left_eq] at same
    obtain ⟨kind, same⟩ := Kind.endedBy_name same
    obtain ⟨lexeme, same⟩ := Text.selfDelimiting_quoted (List.cons.inj same).2
    simp only [List.cons.injEq, true_and] at same
    obtain ⟨payload, same⟩ := Literal.selfDelimiting_payload same
    simp only [List.cons.injEq, true_and] at same
    obtain ⟨location, -⟩ := Location.selfDelimiting_debug same
    exact ⟨kind, lexeme, payload, location⟩
  · rintro ⟨kind, lexeme, payload, location⟩
    rw [debug_eq, debug_eq, kind, lexeme, payload, location]

theorem printable_debug (t : Token) : Text.Printable t.debug := by
  simp only [debug_eq, Text.printable_append, Kind.printable_name, Text.printable_quoted,
    Literal.printable_payload, Location.printable_debug, and_true]
  decide

theorem printable_short (t : Token) : Text.Printable t.short := by
  simp only [short, Text.printable_append, Kind.printable_name, Text.printable_quoted, true_and, and_true]
  refine ⟨⟨by decide, ?_⟩, by decide⟩
  split
  · decide
  split
  · decide
  · exact Text.printable_append.2 ⟨by decide, Literal.printable_shown _⟩

/-- **The debug form of a token is unambiguous and printable.** Two tokens have the same one just if they
agree in kind, lexeme, payload and place, whatever quotes, commas and brackets the texts in them hold;
their numbers may be of any size, so all that `Decimal.maxDigits` digits can write are among them. Neither
this form nor the short one shows a character that is not printable. -/
theorem debug_unambiguous :
    (∀ t u : Token, t.debug = u.debug ↔
      t.kind = u.kind ∧ t.lexeme = u.lexeme ∧ t.payload = u.payload ∧ t.location = u.location) ∧
      ∀ t : Token, Text.Printable t.debug ∧ Text.Printable t.short :=
  ⟨fun _ _ => debug_eq_iff, fun t => ⟨printable_debug t, printable_short t⟩⟩

/-- The lexeme spells out what could stand behind a lexeme, and yet shows where it ends. -/
example : (⟨.string, "', None, \n", none, ⟨"a.mk", 1, 1, 0⟩, 11⟩ : Token).debug =
    "Token(String, \"', None, \\n\", None, SourceLocation('a.mk', 1, 1, 0))" := by
  decide +kernel

end Token

end Lexis

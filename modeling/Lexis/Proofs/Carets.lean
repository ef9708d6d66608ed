import Lexis.Diagnostic.Report
import Lexis.Proofs.Printing

/-!
# The caret below a line

* `IsLine source p front line behind`: the longest stretch without line feeds around the offset `p`, with
  what stands before and behind it;
* `d.caretLines line k help`: a header, the line behind the gutter, a caret with `k` blanks before it, and
  the help;
* `PointsAt source d p front line behind help`: these four lines are the rendered form of the diagnostic,
  and its caret stands below the character at the offset `p`.

A report finds the line by its number and the caret by a column. `Text.nthLine_count` says that the number
leads to the line, and `Gives.pointsAt` that the caret stands below the first character of the piece that
the diagnostic is about. `render_points_at_place` says so of every diagnostic of a scan.
-/

namespace Lexis

/-- **The line around an offset**: no line feed stands in it, and it cannot be made longer. -/
structure IsLine (source : List Char) (p : Nat) (front line behind : List Char) : Prop where
  whole : front ++ (line ++ behind) = source
  starts : front.length ≤ p
  stops : p < front.length + line.length
  unbroken : '\n' ∉ line
  opens : front = [] ∨ front.getLast? = some '\n'
  closes : behind = [] ∨ behind.head? = some '\n'

/-- A header, the line behind the gutter, a caret with `k` blanks before it, and the help. -/
def Diagnostic.caretLines (d : Diagnostic) (line : List Char) (k : Nat) (help : String) : List String :=
  ["Error[" ++ d.fault.code ++ "]:", d.gutter ++ String.ofList line,
    String.ofList (List.replicate k ' ') ++ "^--- " ++ d.message, "  help: " ++ help]

/-- **The rendered form points at the character** at the offset `p`: it is made of these four lines, each
closed by its line feed, and the caret has the index that the character has in the line above. -/
structure PointsAt (source : String) (d : Diagnostic) (p : Nat) (front line behind : List Char)
    (help : String) : Prop where
  place : d.location.offset = p
  helps : d.help = some help
  isLine : IsLine source.toList p front line behind
  gutter : d.gutter = "   " ++ Decimal.ofNat (front.count '\n' + 1) ++ " | "
  lines : d.render source =
    Text.unlines (d.caretLines line (d.gutter.length + (p - front.length)) help)
  unbroken : ∀ s ∈ d.caretLines line (d.gutter.length + (p - front.length)) help, '\n' ∉ s.toList
  above : ∃ c, source.toList[p]? = some c ∧
    (d.gutter ++ String.ofList line).toList[d.gutter.length + (p - front.length)]? = some c

/-! ### The line of a place -/

namespace Text

theorem nthLine_succ (front rest : List Char) :
    nthLine (front.count '\n' + 1) (front ++ '\n' :: rest) = rest.takeWhile (· ≠ '\n') := by
  induction front with
  | nil => simp [nthLine]
  | cons c front ih =>
    by_cases newline : c = '\n'
    · simpa [nthLine, newline] using ih
    · simpa [nthLine, newline] using ih

/-- **The line behind whole lines** is the one with their number. -/
theorem nthLine_count {lines : List Char} (whole : lines = [] ∨ ∃ front, lines = front ++ ['\n'])
    (rest : List Char) :
    nthLine (lines.count '\n') (lines ++ rest) = rest.takeWhile (· ≠ '\n') := by
  rcases whole with rfl | ⟨front, rfl⟩
  · rw [List.count_nil, List.nil_append, nthLine]
  · rw [List.count_append, List.append_assoc]
    exact nthLine_succ front rest

theorem lineAt_count {lines : List Char} (whole : lines = [] ∨ ∃ front, lines = front ++ ['\n'])
    {rest : List Char} {source : String} (split : lines ++ rest = source.toList) :
    lineAt (lines.count '\n' + 1) source = String.ofList (rest.takeWhile (· ≠ '\n')) := by
  have number : ((lines.count '\n' : Int) + 1 - 1).toNat = lines.count '\n' := by omega
  rw [lineAt, if_neg (by omega), number, ← split, nthLine_count whole]

end Text

theorem isLine_of_split {lines last rest : List Char} {c : Char}
    (whole : lines = [] ∨ ∃ front, lines = front ++ ['\n']) (plain : '\n' ∉ last)
    (first : rest.head? = some c) (other : c ≠ '\n') :
    IsLine (lines ++ last ++ rest) (lines ++ last).length lines
      (last ++ rest.takeWhile (· ≠ '\n')) (rest.dropWhile (· ≠ '\n')) where
  whole := by
    rw [List.append_assoc, List.takeWhile_append_dropWhile, List.append_assoc]
  starts := by simp
  stops := by
    obtain ⟨cs, rfl⟩ := List.head?_eq_some_iff.1 first
    rw [List.takeWhile_cons_of_pos (by simpa using other)]
    simp
  unbroken := by
    rw [List.mem_append, not_or]
    exact ⟨plain, not_mem_takeWhile_ne _ _⟩
  opens := by
    rcases whole with rfl | ⟨front, rfl⟩
    · exact .inl rfl
    · exact .inr List.getLast?_concat
  closes := endsBefore_ne_iff.1 (endsBefore_dropWhile _ rest)

theorem IsLine.above {source front stretch behind : List Char} {p : Nat}
    (h : IsLine source p front stretch behind) (gutter : String) :
    ∃ c, source[p]? = some c ∧
      (gutter ++ String.ofList stretch).toList[gutter.length + (p - front.length)]? = some c := by
  have starts := h.starts
  have stops := h.stops
  have inside : p - front.length < stretch.length := by omega
  have here : source[p]? = stretch[p - front.length]? := by
    rw [← h.whole, List.getElem?_append_right starts, List.getElem?_append_left inside]
  refine ⟨stretch[p - front.length], here.trans (List.getElem?_eq_getElem inside), ?_⟩
  rw [String.toList_append, String.toList_ofList, ← String.length_toList,
    List.getElem?_append_right (Nat.le_add_right _ _), Nat.add_sub_cancel_left,
    List.getElem?_eq_getElem inside]

/-! ### The rendered form of a diagnostic -/

namespace Diagnostic

variable {d : Diagnostic} {source help : String} {line : List Char} {k : Nat}

theorem helpLines_eq (helps : d.help = some help) (some : help ≠ "") :
    d.helpLines = ["  help: " ++ help] := by
  unfold helpLines
  rw [helps]
  split
  · next none => cases none
  · next empty => exact absurd (Option.some.inj empty) some
  · next found => rw [Option.some.inj found]

theorem renderLines_eq (severity : d.severity = "error") (helps : d.help = some help)
    (some : help ≠ "") (found : Text.lineAt d.location.line source = String.ofList line)
    (column : (d.gutter.length : Int) + d.location.column - 1 = k) :
    d.renderLines source = d.caretLines line k help := by
  have capital : capitalize "error" = "Error" := by decide
  have padding : d.padding = String.ofList (List.replicate k ' ') := by
    rw [padding, column, Int.toNat_natCast]
  rw [renderLines, severity, capital, found, padding, helpLines_eq helps some]
  rfl

theorem newline_not_mem_caretLines (printable : d.Printable) (helps : d.help = some help)
    (plain : '\n' ∉ line) : ∀ s ∈ d.caretLines line k help, '\n' ∉ s.toList := by
  have code : Text.Printable d.fault.code := by
    cases d.fault <;> decide
  have gutter : Text.Printable d.gutter :=
    (Text.printable_ofInt d.location.line).between (by decide) (by decide)
  have blanks : Text.Printable (String.ofList (List.replicate k ' ')) :=
    Text.printable_ofList.2 fun c member => List.eq_of_mem_replicate member ▸ by decide
  refine List.forall_mem_cons.2 ⟨?_, List.forall_mem_cons.2 ⟨?_, List.forall_mem_cons.2 ⟨?_,
    List.forall_mem_singleton.2 ?_⟩⟩⟩
  · exact (code.between (by decide) (by decide)).newline_not_mem
  · rw [String.toList_append, List.mem_append, not_or, String.toList_ofList]
    exact ⟨gutter.newline_not_mem, plain⟩
  · have caret : Text.Printable "^--- " := by decide
    exact Text.Printable.newline_not_mem (caret.between blanks printable.message)
  · have helped := printable.help help helps
    exact Text.Printable.newline_not_mem (Text.printable_append.2 ⟨by decide, helped⟩)

end Diagnostic

/-! ### Scans -/

section

variable {config : Config} {file : String} {before rest : List Char} {piece : Piece}
  {d : Diagnostic}

theorem Gives.severity_eq (h : Gives config file before piece [] [d]) : d.severity = "error" := by
  cases h <;> rfl

theorem Gives.head_ne_newline (h : Gives config file before piece [] [d])
    (rule : Rule piece.text rest piece) :
    ∃ c, (piece.text ++ rest).head? = some c ∧ c ≠ '\n' := by
  cases h with
  | unclosed q body => exact ⟨q.char, rfl, q.char_ne_newline⟩
  | overflow digits _ =>
    obtain ⟨c, cs, shape⟩ := List.exists_cons_of_ne_nil rule.text_ne_nil
    obtain rfl : digits = c :: cs := shape
    refine ⟨c, rfl, ?_⟩
    rintro rfl
    cases rule.of_numeral.1
  | stray c =>
    refine ⟨c, rfl, ?_⟩
    rintro rfl
    exact rule.of_stray [] [] .newline .newline

/-- **A diagnostic points at the first character of its piece.** -/
theorem Gives.pointsAt {source : String} (h : Gives config file before piece [] [d])
    (rule : Rule piece.text rest piece) (whole : before ++ (piece.text ++ rest) = source.toList) :
    ∃ front line behind help, PointsAt source d before.length front line behind help := by
  -- `last` is the part of the line before the place, so it is as long as the column says
  obtain ⟨lines, last, rfl, plain, length, opens⟩ := exists_lastLine before
  obtain ⟨c, first, other⟩ := h.head_ne_newline rule
  obtain ⟨help, helps, some⟩ := h.exists_help
  have isLine := isLine_of_split opens plain first other
  rw [whole] at isLine
  have count : (lines ++ last).count '\n' = lines.count '\n' := by
    rw [List.count_append, List.count_eq_zero_of_not_mem plain, Nat.add_zero]
  have number : d.location.line = (lines.count '\n' : Int) + 1 := by
    rw [h.diagnostic_location, Location.behind, count]
  have found : Text.lineAt d.location.line source =
      String.ofList (last ++ (piece.text ++ rest).takeWhile (· ≠ '\n')) := by
    rw [List.append_assoc] at whole
    rw [number, Text.lineAt_count opens whole, List.takeWhile_append_of_pos]
    exact List.all_eq_true.1 (all_ne_of_not_mem plain)
  have column : d.location.column = (last.length : Int) + 1 := by
    rw [h.diagnostic_location, Location.behind, length]
  have caret : (d.gutter.length : Int) + d.location.column - 1 =
      (d.gutter.length + ((lines ++ last).length - lines.length) : Nat) := by
    rw [column, List.length_append]
    omega
  refine ⟨lines, _, _, help, ?_, helps, isLine, ?_, ?_, ?_, isLine.above d.gutter⟩
  · rw [h.diagnostic_location]
    rfl
  · rw [Diagnostic.gutter, number]
    rfl
  · rw [Diagnostic.render, Diagnostic.renderLines_eq h.severity_eq helps some found caret]
  · exact Diagnostic.newline_not_mem_caretLines (h.printable rule) helps isLine.unbroken

end

end Lexis

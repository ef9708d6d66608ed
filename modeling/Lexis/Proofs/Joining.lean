import Lexis.Proofs.Extents
import Lexis.Proofs.Rebasing

/-!
# Texts joined and split

* `Location.below front`: the place of a location if the lines of `front` stand above the text;
* `IsEnd source tokens diagnostics e`: a token ends at the offset `e`, or what a diagnostic other than
  that of an unclosed string is about.

`scan_join_lines` says that a line feed between two texts keeps their scans apart, unless the first text
leaves a string open. `scan_split_at_end` says that a text can be split at every such end, and scanned
part by part.
-/

namespace Lexis

variable {config : Config} {file : String}

/-! ### A line feed between two texts -/

/-- The place of the location if the lines of `front` stand above the text. -/
def Location.below (front : List Char) (location : Location) : Location :=
  { location with
    line := location.line + (1 + front.count '\n')
    offset := location.offset + (front.length + 1) }

def Token.below (front : List Char) (token : Token) : Token :=
  { token with location := token.location.below front, stop := token.stop + (front.length + 1) }

def Diagnostic.below (front : List Char) (diagnostic : Diagnostic) : Diagnostic :=
  { diagnostic with location := diagnostic.location.below front }

theorem Location.rebase_newline (front : List Char) :
    Location.rebase (front ++ ['\n']) = Location.below front := by
  funext location
  simp [rebase, below, lineRest_concat, Int.add_comm]

theorem Token.rebase_newline (front : List Char) :
    Token.rebase (front ++ ['\n']) = Token.below front := by
  funext token
  simp [rebase, below, Location.rebase_newline]

theorem Diagnostic.rebase_newline (front : List Char) :
    Diagnostic.rebase (front ++ ['\n']) = Diagnostic.below front := by
  funext diagnostic
  rw [rebase, below, Location.rebase_newline]

theorem Readings.closed {before : List Char} {pieces : List Piece} {tokens : List Token}
    {diagnostics : List Diagnostic} (h : Readings config file before pieces tokens diagnostics)
    (closed : ∀ d ∈ diagnostics, d.fault ≠ .unterminatedLiteral) :
    ∀ piece ∈ pieces, ∀ q body, piece ≠ .unclosed q body := by
  rintro piece member q body rfl
  obtain ⟨other, ts, ds, gives, -, inside⟩ := h.gives_of_mem member
  cases gives with
  | unclosed =>
    exact closed _ (inside List.mem_cons_self) rfl

theorem Piece.cut_append_newline {front : List Char}
    (closed : ∀ piece ∈ cut front, ∀ q body, piece ≠ unclosed q body) (back : List Char) :
    cut (front ++ '\n' :: back) = cut front ++ newline :: cut back := by
  refine cut_eq_iff.2 ⟨?_, ?_⟩
  · have fits : Fitting (cut front ++ []) := by
      rw [List.append_nil]
      exact fitting_cut front
    exact fits.replace ⟨.regular .newline, fitting_cut back⟩
      fun piece member rule => rule.before_newline (closed piece member)
  · rw [List.flatMap_append, List.flatMap_cons, flatMap_text_cut, flatMap_text_cut]
    rfl

/-- **A line feed keeps the scans of two texts apart**, if the first leaves no string open: the joined
text gives what the first gives without its end, and then what the second gives, some lines further
down. -/
theorem scan_join_lines (config : Config) (h : config.bits ≤ Limit.maxBits) (file : Option String)
    (first second : String) :
    ∃ tokens eof diagnostics ts ds,
      scan first file config = .ok ⟨tokens ++ [eof], diagnostics⟩ ∧ eof.kind = .eof ∧
      scan second file config = .ok ⟨ts, ds⟩ ∧
      ((∀ d ∈ diagnostics, d.fault ≠ .unterminatedLiteral) →
        scan (first ++ "\n" ++ second) file config =
          .ok ⟨tokens ++ ts.map (Token.below first.toList),
            diagnostics ++ ds.map (Diagnostic.below first.toList)⟩) := by
  obtain ⟨tokens, diagnostics, scanned, readings⟩ := scan_readings h file first
  obtain ⟨ts, ds, scanned', readings'⟩ := scan_readings h file second
  refine ⟨tokens, _, diagnostics, _, ds, scanned, rfl, scanned', fun closed => ?_⟩
  have front : (first ++ "\n").toList = first.toList ++ ['\n'] := String.toList_append
  have alone := Piece.cut_append_newline (readings.closed closed)
  -- the line feed is a piece of its own, at the end of the first text
  have ended : Piece.cut (first ++ "\n").toList = Piece.cut first.toList ++ [.newline] := by
    rw [front, alone [], Piece.cut]
  have parts : Piece.cut ((first ++ "\n").toList ++ second.toList) =
      Piece.cut (first ++ "\n").toList ++ Piece.cut second.toList := by
    rw [ended, front, List.append_assoc, List.append_assoc]
    exact alone second.toList
  have feed : Readings config (config.fileName file)
      ([] ++ (Piece.cut first.toList).flatMap Piece.text) [.newline] [] [] :=
    .step .newline (.done _)
  have readings := readings.append feed
  rw [List.append_nil, List.append_nil, ← ended] at readings
  rw [scan_append h readings readings' parts, front, Token.rebase_newline,
    Diagnostic.rebase_newline]

theorem scan_join_lines_standard :
    Config.standard.bits ≤ Limit.maxBits ∧
      ∃ tokens eof diagnostics ts ds,
        scan "x @ = // '" none Config.standard = .ok ⟨tokens ++ [eof], diagnostics⟩ ∧
        eof.kind = .eof ∧
        scan "=12\n 'y" none Config.standard = .ok ⟨ts, ds⟩ ∧
        (∀ d ∈ diagnostics, d.fault ≠ .unterminatedLiteral) ∧
        scan ("x @ = // '" ++ "\n" ++ "=12\n 'y") none Config.standard =
          .ok ⟨tokens ++ ts.map (Token.below "x @ = // '".toList),
            diagnostics ++ ds.map (Diagnostic.below "x @ = // '".toList)⟩ := by
  obtain ⟨tokens, eof, diagnostics, ts, ds, first, kind, second, joined⟩ :=
    scan_join_lines Config.standard (by decide) none "x @ = // '" "=12\n 'y"
  have faults : (scan "x @ = // '" none Config.standard).toOption.map
      (fun result => result.diagnostics.map Diagnostic.fault) = some [.unexpectedCharacter] := by
    decide +kernel
  have closed : ∀ d ∈ diagnostics, d.fault ≠ .unterminatedLiteral := by
    intro d member
    rw [first] at faults
    have listed : diagnostics.map Diagnostic.fault = [.unexpectedCharacter] :=
      Option.some.inj faults
    have one : d.fault ∈ diagnostics.map Diagnostic.fault := List.mem_map_of_mem member
    rw [listed, List.mem_singleton] at one
    rw [one]
    decide
  exact ⟨by decide, tokens, eof, diagnostics, ts, ds, first, kind, second, closed, joined closed⟩

/-! ### Splitting a text -/

/-- A token ends at the offset, or what a diagnostic of one character or of one numeral is about. -/
def IsEnd (source : List Char) (tokens : List Token) (diagnostics : List Diagnostic) (e : Nat) :
    Prop :=
  (∃ t ∈ tokens, t.stop = e) ∨
    ∃ d ∈ diagnostics, d.fault ≠ .unterminatedLiteral ∧ (d.span source).2 = e

/-- At such an end a piece of the source ends. -/
theorem IsEnd.exists_cut {source : List Char} {tokens : List Token} {diagnostics : List Diagnostic}
    {e : Nat} (h : IsEnd source (tokens ++ [eofBehind file source]) diagnostics e)
    (readings : Readings config file [] (Piece.cut source) tokens diagnostics) :
    ∃ front behind, Piece.cut source = front ++ behind ∧ (front.flatMap Piece.text).length = e := by
  rcases h with ⟨t, member, ends⟩ | ⟨d, member, -, ends⟩
  · rcases List.mem_append.1 member with body | last
    · obtain ⟨front, piece, behind, split, gives⟩ := readings.of_mem_token body
      rw [(gives.ends split).1 t List.mem_cons_self] at ends
      exact ⟨front ++ [piece], behind, split.trans (List.append_cons ..), Int.ofNat.inj ends⟩
    · rw [List.mem_singleton.1 last] at ends
      refine ⟨Piece.cut source, [], (List.append_nil _).symm, ?_⟩
      rw [Piece.flatMap_text_cut]
      exact Int.ofNat.inj ends
  · obtain ⟨front, piece, behind, split, gives⟩ := readings.of_mem_diagnostic member
    rw [(gives.ends split).2 d List.mem_cons_self] at ends
    exact ⟨front ++ [piece], behind, split.trans (List.append_cons ..), Int.ofNat.inj ends⟩

theorem scan_take_drop (h : config.bits ≤ Limit.maxBits) (file : Option String) {source : String}
    {front behind : List Piece} (split : Piece.cut source.toList = front ++ behind) {e : Nat}
    (length : (front.flatMap Piece.text).length = e) :
    ∃ tokens eof faults rest others,
      scan (String.ofList (source.toList.take e)) file config = .ok ⟨tokens ++ [eof], faults⟩ ∧
      eof.kind = .eof ∧
      scan (String.ofList (source.toList.drop e)) file config = .ok ⟨rest, others⟩ ∧
      scan source file config =
        .ok ⟨tokens ++ rest.map (Token.rebase (source.toList.take e)),
          faults ++ others.map (Diagnostic.rebase (source.toList.take e))⟩ := by
  have parts : Piece.cut ((String.ofList (source.toList.take e)).toList ++
        (String.ofList (source.toList.drop e)).toList) =
      Piece.cut (String.ofList (source.toList.take e)).toList ++
        Piece.cut (String.ofList (source.toList.drop e)).toList := by
    rw [String.toList_ofList, String.toList_ofList, List.take_append_drop, ← length,
      Piece.cut_take split, Piece.cut_drop split, split]
  have together : String.ofList (source.toList.take e) ++ String.ofList (source.toList.drop e) =
      source := by
    rw [← String.ofList_append, List.take_append_drop, String.ofList_toList]
  obtain ⟨tokens, faults, scanned, readings⟩ :=
    scan_readings h file (String.ofList (source.toList.take e))
  obtain ⟨rest, others, scanned', readings'⟩ :=
    scan_readings h file (String.ofList (source.toList.drop e))
  have joined := scan_append h readings readings' parts
  rw [together, String.toList_ofList] at joined
  exact ⟨tokens, _, faults, _, others, scanned, rfl, scanned', joined⟩

/-- **A text can be split where a token ends**, or what a diagnostic is about: the part up to there
gives the first tokens and diagnostics, without an end, and the part from there on the others, rebased
to where it stands. -/
theorem scan_split_at_end (config : Config) (h : config.bits ≤ Limit.maxBits) (file : Option String)
    (source : String) :
    ∃ tokens diagnostics, scan source file config = .ok ⟨tokens, diagnostics⟩ ∧
      ∀ e, IsEnd source.toList tokens diagnostics e →
        ∃ front eof faults behind others,
          scan (String.ofList (source.toList.take e)) file config = .ok ⟨front ++ [eof], faults⟩ ∧
          eof.kind = .eof ∧
          scan (String.ofList (source.toList.drop e)) file config = .ok ⟨behind, others⟩ ∧
          tokens = front ++ behind.map (Token.rebase (source.toList.take e)) ∧
          diagnostics = faults ++ others.map (Diagnostic.rebase (source.toList.take e)) := by
  obtain ⟨tokens, diagnostics, scanned, readings⟩ := scan_readings h file source
  refine ⟨_, diagnostics, scanned, fun e ends => ?_⟩
  obtain ⟨front, behind, split, length⟩ := ends.exists_cut readings
  obtain ⟨first, eof, faults, rest, others, taken, kind, dropped, whole⟩ :=
    scan_take_drop h file split length
  rw [scanned] at whole
  obtain ⟨sameTokens, sameDiagnostics⟩ := ScanResult.mk.inj (Except.ok.inj whole)
  exact ⟨first, eof, faults, rest, others, taken, kind, dropped, sameTokens, sameDiagnostics⟩

/-- The string over two lines ends at the offset 7. -/
theorem scan_split_at_end_standard :
    Config.standard.bits ≤ Limit.maxBits ∧
      ∃ tokens diagnostics, scan "a 'b\nc'd @\n9" none Config.standard = .ok ⟨tokens, diagnostics⟩ ∧
        IsEnd "a 'b\nc'd @\n9".toList tokens diagnostics 7 ∧
        ∃ front eof faults behind others,
          scan (String.ofList ("a 'b\nc'd @\n9".toList.take 7)) none Config.standard =
            .ok ⟨front ++ [eof], faults⟩ ∧
          eof.kind = .eof ∧
          scan (String.ofList ("a 'b\nc'd @\n9".toList.drop 7)) none Config.standard =
            .ok ⟨behind, others⟩ ∧
          tokens = front ++ behind.map (Token.rebase ("a 'b\nc'd @\n9".toList.take 7)) ∧
          diagnostics =
            faults ++ others.map (Diagnostic.rebase ("a 'b\nc'd @\n9".toList.take 7)) := by
  obtain ⟨tokens, diagnostics, scanned, split⟩ :=
    scan_split_at_end Config.standard (by decide) none "a 'b\nc'd @\n9"
  have stops : (scan "a 'b\nc'd @\n9" none Config.standard).toOption.map
      (fun result => result.tokens.map Token.stop) = some [1, 7, 8, 12, 12] := by
    decide +kernel
  have ends : IsEnd "a 'b\nc'd @\n9".toList tokens diagnostics 7 := by
    rw [scanned] at stops
    have listed : tokens.map Token.stop = [1, 7, 8, 12, 12] := Option.some.inj stops
    have member : (7 : Int) ∈ tokens.map Token.stop := listed ▸ by decide
    exact .inl (List.mem_map.1 member)
  exact ⟨by decide, tokens, diagnostics, scanned, ends, split 7 ends⟩

end Lexis

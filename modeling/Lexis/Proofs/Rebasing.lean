import Lexis.Proofs.Readings

/-!
# Scans of joined texts

`rebase front` gives a location, a token or a diagnostic of a text its place in the text that has
`front` before it: the offsets and lines go up by those of `front`, and the columns of the first line by
what stands behind the last line feed of `front`.

Whatever pieces give behind a text, they give behind a longer one with the places rebased
(`Readings.rebase`). So if the pieces of two texts are also those of the joined text, the scan of the
joined text gives what the first one gives and then, rebased, what the second one gives: `scan_append`.
-/

namespace Lexis

/-! ### Places behind another text -/

/-- The place of the location if `front` stands before the text. -/
def Location.rebase (front : List Char) (location : Location) : Location :=
  { location with
    line := location.line + front.count '\n'
    column := if location.line = 1 then location.column + lineRest front else location.column
    offset := location.offset + front.length }

def Token.rebase (front : List Char) (token : Token) : Token :=
  { token with location := token.location.rebase front, stop := token.stop + front.length }

def Diagnostic.rebase (front : List Char) (diagnostic : Diagnostic) : Diagnostic :=
  { diagnostic with location := diagnostic.location.rebase front }

/-- The last line of a joined text starts in its first part if the second has no line feed. -/
theorem lineRest_append (front before : List Char) :
    lineRest (front ++ before) =
      if before.count '\n' = 0 then lineRest front + lineRest before else lineRest before := by
  induction before using List.reverseRecOn with
  | nil =>
    rw [List.append_nil]
    rfl
  | append_singleton before c ih =>
    rw [← List.append_assoc, lineRest_concat, lineRest_concat, ih]
    by_cases newline : c = '\n'
    · simp [newline]
    · by_cases first : before.count '\n' = 0
      · simp [newline, first, Nat.add_assoc]
      · simp [newline, first]

theorem Location.behind_append (file : String) (front before : List Char) :
    behind file (front ++ before) = (behind file before).rebase front := by
  have line : ((before.count '\n' : Int) + 1 = 1) ↔ before.count '\n' = 0 := by omega
  simp only [behind, rebase, List.count_append, List.length_append, lineRest_append, line]
  by_cases first : before.count '\n' = 0
  · simp [first]
    omega
  · simp [first]
    omega

theorem eofBehind_append (file : String) (front before : List Char) :
    eofBehind file (front ++ before) = (eofBehind file before).rebase front := by
  simp [eofBehind, Token.rebase, Location.behind_append, Int.add_comm]

/-! ### Pieces behind another text -/

variable {config : Config} {file : String} {before : List Char} {piece : Piece}
  {pieces : List Piece} {tokens : List Token} {diagnostics : List Diagnostic}

theorem Gives.rebase (h : Gives config file before piece tokens diagnostics) (front : List Char) :
    Gives config file (front ++ before) piece (tokens.map (Token.rebase front))
      (diagnostics.map (Diagnostic.rebase front)) := by
  refine h.map (fun t location stop => ?_) fun d location => ?_
  · have length : ((front ++ before ++ piece.text).length : Int) =
        (before ++ piece.text).length + front.length := by
      simp only [List.length_append]
      omega
    rw [Token.movedBehind, Token.rebase, Location.behind_append, length, location, stop]
  · rw [Diagnostic.movedBehind, Diagnostic.rebase, Location.behind_append, location]

/-- **Pieces give the same behind a longer text**, with the places rebased. -/
theorem Readings.rebase (h : Readings config file before pieces tokens diagnostics)
    (front : List Char) :
    Readings config file (front ++ before) pieces (tokens.map (Token.rebase front))
      (diagnostics.map (Diagnostic.rebase front)) := by
  induction h with
  | done before => exact .done _
  | step gives _ ih =>
    rw [List.map_append, List.map_append]
    rw [← List.append_assoc] at ih
    exact .step (gives.rebase front) ih

theorem Readings.join {front back : List Char} {ts : List Token} {ds : List Diagnostic}
    (h : Readings config file [] (Piece.cut front) tokens diagnostics)
    (h' : Readings config file [] (Piece.cut back) ts ds)
    (parts : Piece.cut (front ++ back) = Piece.cut front ++ Piece.cut back) :
    Readings config file [] (Piece.cut (front ++ back)) (tokens ++ ts.map (Token.rebase front))
      (diagnostics ++ ds.map (Diagnostic.rebase front)) := by
  have behind := h'.rebase front
  rw [List.append_nil] at behind
  rw [parts]
  refine h.append ?_
  rwa [Piece.flatMap_text_cut, List.nil_append]

/-! ### Scans -/

/-- **The scan of a joined text** whose pieces are those of its parts. -/
theorem scan_append (h : config.bits ≤ Limit.maxBits) {file : Option String} {front back : String}
    {ts : List Token} {ds : List Diagnostic}
    (readings : Readings config (config.fileName file) [] (Piece.cut front.toList) tokens diagnostics)
    (readings' : Readings config (config.fileName file) [] (Piece.cut back.toList) ts ds)
    (parts : Piece.cut (front.toList ++ back.toList) =
      Piece.cut front.toList ++ Piece.cut back.toList) :
    scan (front ++ back) file config =
      .ok ⟨tokens ++ (ts ++ [eofBehind (config.fileName file) back.toList]).map
          (Token.rebase front.toList),
        diagnostics ++ ds.map (Diagnostic.rebase front.toList)⟩ := by
  have joined := readings.join readings' parts
  rw [← String.toList_append] at joined
  rw [scan_eq_of_readings h joined, String.toList_append, eofBehind_append, List.map_append,
    List.map_singleton, List.append_assoc]

end Lexis

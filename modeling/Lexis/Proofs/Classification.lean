import Lexis.Proofs.Extents
import Mathlib.Data.List.Forall2

/-!
# What the table and the name of a text are seen in

* `config.classify w`: the kind and the payload of the word `w` under the table of the config;
* `Token.IsWordOf config source t`: the token is a word of the source, and it is what the table says;
* `Token.Parallel a b source t u`: the tokens differ in kind and payload at most, and only if they are a
  word on which the tables of `a` and `b` differ;
* `inFile name`: the same with another name of the text in every location.

Two scans of a text go over the same pieces, so `Readings.relate` compares them piece by piece. Tables of
one width are seen in the classification of words alone (`Readings.parallel`), and the name of a text in
locations alone (`Reader.run_inFile`). `scan_table_classifies_words` puts both together.
-/

namespace Lexis

/-! ### Two readings of the same pieces -/

/-- **Two readings of the same pieces are related** as what each piece gives in them, if the relation
holds of nothing and is kept when more is put behind. -/
theorem Readings.relate {a b : Config} {fileA fileB : String} {before : List Char}
    {pieces : List Piece} {tokens others : List Token} {diagnostics faults : List Diagnostic}
    {R : List Token → List Diagnostic → List Token → List Diagnostic → Prop} (nil : R [] [] [] [])
    (append : ∀ ts ds us es ts' ds' us' es', R ts ds us es → R ts' ds' us' es' →
      R (ts ++ ts') (ds ++ ds') (us ++ us') (es ++ es'))
    (h : Readings a fileA before pieces tokens diagnostics)
    (h' : Readings b fileB before pieces others faults)
    (gives : ∀ front piece behind ts ds us es, pieces = front ++ piece :: behind →
      Gives a fileA (before ++ front.flatMap Piece.text) piece ts ds →
      Gives b fileB (before ++ front.flatMap Piece.text) piece us es → R ts ds us es) :
    R tokens diagnostics others faults := by
  induction h generalizing others faults with
  | done before =>
    cases h'
    exact nil
  | @step before piece pieces ts ds tokens diagnostics first _ ih =>
    cases h' with
    | @step _ _ _ us es others faults first' readings' =>
      apply append
      · refine gives [] piece pieces ts ds us es rfl ?_ ?_
        · simpa using first
        · simpa using first'
      · apply ih readings'
        intro front other behind ts' ds' us' es' split later later'
        refine gives (piece :: front) other behind ts' ds' us' es' ?_ ?_ ?_
        · rw [split, List.cons_append]
        · rwa [List.flatMap_cons, ← List.append_assoc]
        · rwa [List.flatMap_cons, ← List.append_assoc]

/-! ### Words under a table -/

/-- What a word is: a keyword with its spelling if the table has it, a name otherwise. -/
def Config.classify (config : Config) (w : String) : Kind × Option Literal :=
  match config.keywords.get? w with
  | some keyword => (.keyword keyword, some (.text w))
  | none => (.identifier, none)

/-- **The token is a word of the source**, and its kind and payload are what the table says. -/
structure Token.IsWordOf (config : Config) (source : List Char) (t : Token) : Prop where
  isWord : IsWord t.lexeme.toList
  lexeme : t.lexeme = String.ofList (slice source t.span)
  classified : (t.kind, t.payload) = config.classify t.lexeme

/-- **The tokens are the same but for the classification of a word** on which the tables differ. -/
structure Token.Parallel (a b : Config) (source : List Char) (t u : Token) : Prop where
  lexeme : t.lexeme = u.lexeme
  location : t.location = u.location
  stop : t.stop = u.stop
  classes : (t.kind = u.kind ∧ t.payload = u.payload) ∨
    (a.keywords.get? t.lexeme ≠ b.keywords.get? t.lexeme ∧
      t.IsWordOf a source ∧ u.IsWordOf b source)

theorem Token.Parallel.refl (a b : Config) (source : List Char) (t : Token) :
    t.Parallel a b source t :=
  ⟨rfl, rfl, rfl, .inl ⟨rfl, rfl⟩⟩

variable {a b config : Config} {file : String} {before rest source : List Char} {piece : Piece}
  {pieces : List Piece} {tokens others : List Token} {diagnostics faults : List Diagnostic}

/-- The token of a word that stands behind `before`. -/
def Config.wordBehind (config : Config) (file : String) (before spelling : List Char) : Token :=
  (Piece.word spelling).tokenBehind file before (config.classify (String.ofList spelling)).1 spelling
    (config.classify (String.ofList spelling)).2

theorem Gives.word_iff {spelling : List Char} :
    Gives config file before (.word spelling) tokens diagnostics ↔
      tokens = [config.wordBehind file before spelling] ∧ diagnostics = [] := by
  unfold Config.wordBehind Config.classify
  constructor
  · intro h
    cases h with
    | keyword _ keyword found => simp only [found, and_self]
    | identifier _ missing => simp only [missing, and_self]
  · rintro ⟨rfl, rfl⟩
    cases found : config.keywords.get? (String.ofList spelling) with
    | some keyword => exact .keyword spelling keyword found
    | none => exact .identifier spelling found

theorem Rule.of_word {text spelling : List Char} (h : Rule text rest (.word spelling)) :
    IsWord spelling := by
  cases h with
  | regular h =>
    cases h with
    | word first all _ => exact ⟨first, all⟩

theorem Config.isWordOf_wordBehind (config : Config) {spelling : List Char}
    (whole : before ++ (spelling ++ rest) = source) (isWord : IsWord spelling) :
    (config.wordBehind file before spelling).IsWordOf config source where
  isWord := by
    show IsWord (String.ofList spelling).toList
    rwa [String.toList_ofList]
  lexeme := by
    show String.ofList spelling =
      String.ofList (slice source (before.length, (before ++ spelling).length))
    rw [slice_eq before spelling rest whole rfl rfl]
  classified := rfl

/-! ### Two tables -/

theorem Config.maxInteger_congr (bits : b.bits = a.bits) : b.maxInteger = a.maxInteger :=
  congrArg Limit.greatest bits

theorem Config.parallel_wordBehind (a b : Config) (file : String) {spelling : List Char}
    (whole : before ++ (spelling ++ rest) = source) (isWord : IsWord spelling) :
    (a.wordBehind file before spelling).Parallel a b source (b.wordBehind file before spelling) where
  lexeme := rfl
  location := rfl
  stop := rfl
  classes := by
    by_cases same : a.keywords.get? (String.ofList spelling) =
        b.keywords.get? (String.ofList spelling)
    · have classified : a.classify (String.ofList spelling) = b.classify (String.ofList spelling) := by
        unfold classify
        rw [same]
      left
      unfold wordBehind
      rw [classified]
      exact ⟨rfl, rfl⟩
    · right
      exact ⟨same, a.isWordOf_wordBehind whole isWord, b.isWordOf_wordBehind whole isWord⟩

/-- **What a piece gives under two tables** is the same but for the classification of a word. -/
theorem Gives.parallel (bits : b.bits = a.bits) (whole : before ++ (piece.text ++ rest) = source)
    (rule : Rule piece.text rest piece) (h : Gives a file before piece tokens diagnostics)
    (h' : Gives b file before piece others faults) :
    List.Forall₂ (Token.Parallel a b source) tokens others ∧ diagnostics = faults := by
  have maxima := Config.maxInteger_congr bits
  have alike (ts : List Token) : List.Forall₂ (Token.Parallel a b source) ts ts :=
    List.forall₂_same.2 fun t _ => .refl a b source t
  cases piece with
  | word spelling =>
    obtain ⟨rfl, rfl⟩ := Gives.word_iff.1 h
    obtain ⟨rfl, rfl⟩ := Gives.word_iff.1 h'
    exact ⟨.cons (a.parallel_wordBehind b file whole rule.of_word) .nil, rfl⟩
  | numeral digits =>
    cases h with
    | integer _ small =>
      cases h' with
      | integer => exact ⟨alike _, rfl⟩
      | overflow _ large => omega
    | overflow _ large =>
      cases h' with
      | integer _ small => omega
      | overflow =>
        rw [maxima]
        exact ⟨.nil, rfl⟩
  | _ =>
    cases h
    cases h'
    exact ⟨alike _, rfl⟩

/-- **What the pieces of a source give under two tables.** -/
theorem Readings.parallel (bits : b.bits = a.bits)
    (h : Readings a file [] (Piece.cut source) tokens diagnostics)
    (h' : Readings b file [] (Piece.cut source) others faults) :
    List.Forall₂ (Token.Parallel a b source) tokens others ∧ diagnostics = faults := by
  refine h.relate (R := fun ts ds us es =>
    List.Forall₂ (Token.Parallel a b source) ts us ∧ ds = es) ⟨.nil, rfl⟩ ?_ h' ?_
  · rintro ts ds us es ts' ds' us' es' ⟨first, rfl⟩ ⟨later, rfl⟩
    exact ⟨List.rel_append first later, rfl⟩
  · intro front piece behind ts ds us es split gives gives'
    obtain ⟨whole, rule⟩ := Piece.rule_of_cut split
    exact Gives.parallel bits whole rule gives gives'

/-! ### Another name -/

def Config.withFile (config : Config) (name : String) : Config := { config with file := name }

def Location.inFile (name : String) (location : Location) : Location :=
  { location with file := name }

def Token.inFile (name : String) (t : Token) : Token :=
  { t with location := t.location.inFile name }

def Diagnostic.inFile (name : String) (d : Diagnostic) : Diagnostic :=
  { d with location := d.location.inFile name }

def ScanResult.inFile (name : String) (result : ScanResult) : ScanResult :=
  ⟨result.tokens.map (Token.inFile name), result.diagnostics.map (Diagnostic.inFile name)⟩

def Reading.inFile (name : String) : Reading → Reading
  | .blank => .blank
  | .token t => .token (t.inFile name)
  | .fault d => .fault (d.inFile name)
  | .refused reason => .refused reason

def Outcome.inFile (name : String) (outcome : Outcome) : Outcome :=
  { outcome with
    tokens := outcome.tokens.map (Token.inFile name)
    diagnostics := outcome.diagnostics.map (Diagnostic.inFile name) }

theorem Reader.read_inFile (reader : Reader) (name : String) (start : Position) (piece : Piece) :
    { reader with file := name }.read start piece = (reader.read start piece).inFile name := by
  cases piece with
  | word spelling =>
    unfold read word
    dsimp only
    cases reader.keywords.get? (String.ofList spelling) <;> rfl
  | numeral digits =>
    unfold read numeral
    dsimp only
    cases reader.limit with
    | error reason => rfl
    | ok limit =>
      dsimp only
      cases limit.read digits with
      | error reason => rfl
      | ok value => cases value <;> rfl
  | _ => rfl

/-- **The name of a text is seen in locations alone**, also if the scan is stopped. -/
theorem Reader.run_inFile (reader : Reader) (name : String) (start : Position)
    (pieces : List Piece) :
    { reader with file := name }.run start pieces = (reader.run start pieces).inFile name := by
  induction pieces generalizing start with
  | nil => rfl
  | cons piece pieces ih =>
    unfold run
    rw [read_inFile]
    dsimp only
    rw [ih]
    cases reader.read start piece <;> rfl

theorem Outcome.result_inFile (outcome : Outcome) (name : String) :
    (outcome.inFile name).result = outcome.result.map (ScanResult.inFile name) := by
  unfold result inFile
  cases outcome.refusal <;> rfl

/-! ### Scans -/

/-- **The table and the name in a scan.** Under two configs of one width, a text of one name gives the
same diagnostics, and tokens that differ in the classification of words alone, where the tables differ.
A text of another name gives the same with the other name in every location, under any width. -/
theorem scan_table_classifies_words (a : Config) (file : Option String) (source : String) :
    (∀ (b : Config) (other : Option String), a.bits ≤ Limit.maxBits → b.bits = a.bits →
      b.fileName other = a.fileName file →
      ∃ tokens others diagnostics,
        scan source file a = .ok ⟨tokens, diagnostics⟩ ∧
        scan source other b = .ok ⟨others, diagnostics⟩ ∧
        List.Forall₂ (Token.Parallel a b source.toList) tokens others) ∧
      ∀ (name : String) (other : Option String),
        scan source other (a.withFile name) =
          (scan source file a).map (ScanResult.inFile ((a.withFile name).fileName other)) := by
  constructor
  · intro b other narrow bits name
    have narrow' : b.bits ≤ Limit.maxBits := by
      rwa [bits]
    obtain ⟨tokens, diagnostics, scanned, readings⟩ := scan_readings narrow file source
    obtain ⟨others, faults, scanned', readings'⟩ := scan_readings narrow' other source
    rw [name] at scanned' readings'
    obtain ⟨parallel, rfl⟩ := readings.parallel bits readings'
    refine ⟨_, _, diagnostics, scanned, scanned', ?_⟩
    apply List.rel_append parallel
    exact .cons (.refl a b _ _) .nil
  · intro name other
    unfold scan
    rw [← Outcome.result_inFile]
    congr 1
    exact (a.reader (a.fileName file)).run_inFile _ .start (Piece.cut source.toList)

/-- The standard settings with two words in the table, one of them under another keyword. -/
def Config.custom : Config :=
  { Config.standard with
    keywords := ⟨[("set", .letWord), ("let", .forWord)], by decide⟩, words := by decide }

/-- Three words are classified anew here, but neither the name `x` nor the string is. -/
theorem scan_table_classifies_words_custom :
    Config.standard.bits ≤ Limit.maxBits ∧ Config.custom.bits = Config.standard.bits ∧
      Config.custom.fileName (some "<unknown>") = Config.standard.fileName none ∧
      (∃ tokens others diagnostics,
        scan "set let if x 'let' @" none Config.standard = .ok ⟨tokens, diagnostics⟩ ∧
        scan "set let if x 'let' @" (some "<unknown>") Config.custom = .ok ⟨others, diagnostics⟩ ∧
        List.Forall₂ (Token.Parallel Config.standard Config.custom "set let if x 'let' @".toList)
          tokens others) ∧
      scan "set let if x 'let' @" none (Config.standard.withFile "a.monk") =
        (scan "set let if x 'let' @" none Config.standard).map (ScanResult.inFile "a.monk") := by
  obtain ⟨tables, names⟩ :=
    scan_table_classifies_words Config.standard none "set let if x 'let' @"
  exact ⟨by decide, rfl, rfl, tables Config.custom (some "<unknown>") (by decide) rfl rfl,
    names "a.monk" none⟩

end Lexis

import Lexis.Proofs.Readings

/-!
# Written tokens

* `Written config`: a token as it is written: a mark, a numeral within the limit, a word or a string;
* `Filler`: what may stand between tokens: a space, a line feed, or a comment with its line feed;
* `Fuses left right`: the second token would go on with the first if nothing stood between them;
* `Separates left gap right`: the gap keeps the two tokens apart.

`rule_iff_separates` says that `Separates` is the exact condition for the first of two tokens to end where
it is written to end. `scan_written` says that tokens written with such gaps are what a scan returns.
-/

namespace Lexis

/-- A token as it is written. -/
inductive Written (config : Config)
  | mark (m : Mark)
  | numeral (digits : List Char) (nonempty : digits ≠ []) (all : digits.all Char.isDigit = true)
      (small : Decimal.value digits ≤ config.maxInteger)
  | word (spelling : List Char) (isWord : IsWord spelling)
  | string (q : Quote) (body : List Char) (inside : q.char ∉ body)

/-- What may stand between tokens. -/
inductive Filler
  | space
  | newline
  /-- A whole comment, with the line feed that ends it. -/
  | comment (body : List Char) (plain : '\n' ∉ body)

variable {config : Config}

namespace Written

def text : Written config → List Char
  | mark m => m.spelling
  | numeral digits .. => digits
  | word spelling _ => spelling
  | string q body _ => q.char :: (body ++ [q.char])

def piece : Written config → Piece
  | mark m => .mark m
  | numeral digits .. => .numeral digits
  | word spelling _ => .word spelling
  | string q body _ => .quoted q body

/-- The kind, the lexeme and the payload of the token. -/
def content : Written config → Kind × String × Option Literal
  | mark m => (.mark m, String.ofList m.spelling, none)
  | numeral digits .. =>
    (.integer, String.ofList digits, some (.integer (Decimal.value digits)))
  | word spelling _ =>
    match config.keywords.get? (String.ofList spelling) with
    | some keyword =>
      (.keyword keyword, String.ofList spelling, some (.text (String.ofList spelling)))
    | none => (.identifier, String.ofList spelling, none)
  | string _ body _ => (.string, String.ofList body, some (.text (String.ofList body)))

end Written

def Token.content (t : Token) : Kind × String × Option Literal := (t.kind, t.lexeme, t.payload)

namespace Filler

def text : Filler → List Char
  | space => [' ']
  | newline => ['\n']
  | comment body _ => '/' :: '/' :: (body ++ ['\n'])

def pieces : Filler → List Piece
  | space => [.space]
  | newline => [.newline]
  | comment body _ => [.comment body, .newline]

end Filler

def gapText (gap : List Filler) : List Char := gap.flatMap Filler.text

/-- **The tokens that run together**: the second would go on with the first. -/
inductive Fuses : Written config → Written config → Prop
  | words {w v hw hv} : Fuses (.word w hw) (.word v hv)
  | wordNumeral {w v hw nonempty all small} :
      Fuses (.word w hw) (.numeral v nonempty all small)
  | numerals {w v nonempty all small nonempty' all' small'} :
      Fuses (.numeral w nonempty all small) (.numeral v nonempty' all' small')
  | equals {m right} : m ∈ [Mark.bang, .equal, .less, .greater] → right.text.head? = some '=' →
      Fuses (.mark m) right
  | slashes : Fuses (.mark .slash) (.mark .slash)

/-- **The gap keeps the tokens apart**: it is not empty if they would run together, and no comment
follows a slash. -/
structure Separates (left : Written config) (gap : List Filler) (right : Written config) : Prop where
  apart : Fuses left right → gapText gap ≠ []
  noComment : left.text = ['/'] → (gapText gap).head? ≠ some '/'

/-! ### First characters -/

theorem isWordChar_of_isDigit {c : Char} (h : c.isDigit = true) : isWordChar c = true := by
  simp [isWordChar, h]

/-- What the first character of a token says of it. -/
def Written.OpensWith (c : Char) : Written config → Prop
  | mark m => isWordChar c = false ∧ (c = '/' → m = .slash)
  | numeral .. => c.isDigit = true
  | word .. => isWordStart c = true
  | string .. => isWordChar c = false ∧ c ≠ '/'

theorem Written.exists_text (w : Written config) : ∃ c cs, w.text = c :: cs ∧ w.OpensWith c := by
  cases w with
  | mark m => cases m <;> exact ⟨_, _, rfl, by decide, by decide⟩
  | numeral digits nonempty all small =>
    obtain ⟨c, cs, rfl⟩ := List.exists_cons_of_ne_nil nonempty
    exact ⟨c, cs, rfl, List.all_eq_true.1 all c List.mem_cons_self⟩
  | word spelling isWord =>
    cases spelling with
    | nil => exact isWord.elim
    | cons c cs => exact ⟨c, cs, rfl, isWord.1⟩
  | string q body inside => cases q <;> exact ⟨_, _, rfl, by decide, by decide⟩

theorem Mark.joined?_cases {m : Mark} {c : Char} (h : m.joined? = some c) :
    (m ∈ [bang, equal, less, greater] ∧ c = '=') ∨ (m = slash ∧ c = '/') := by
  cases m <;> cases h <;> first | exact .inl ⟨by decide, rfl⟩ | exact .inr ⟨rfl, rfl⟩

theorem Mark.joined?_of_mem {m : Mark} (h : m ∈ [bang, equal, less, greater]) :
    m.joined? = some '=' := by
  cases m <;> first | rfl | exact absurd h (by decide)

/-- A token goes on with the first character of another just if the two run together. -/
theorem Written.goesOn_iff_fuses {left right : Written config} {c : Char} {cs : List Char}
    (h : right.text = c :: cs) (opens : right.OpensWith c) :
    left.piece.goesOn c = true ↔ Fuses left right := by
  constructor
  · intro goes
    cases left with
    | mark m =>
      rcases Mark.joined?_cases (of_decide_eq_true goes) with ⟨member, rfl⟩ | ⟨rfl, rfl⟩
      · exact .equals member (by rw [h]; rfl)
      · cases right with
        | mark n =>
          rw [opens.2 rfl]
          exact .slashes
        | numeral | word => cases opens
        | string => exact absurd rfl opens.2
    | numeral digits =>
      have digit : c.isDigit = true := goes
      cases right with
      | mark | string =>
        have inWord := isWordChar_of_isDigit digit
        rw [opens.1] at inWord
        cases inWord
      | numeral => exact .numerals
      | word =>
        have start : isWordStart c = true := opens
        rw [isWordStart_of_isDigit digit] at start
        cases start
    | word spelling =>
      have inWord : isWordChar c = true := goes
      cases right with
      | mark | string =>
        rw [opens.1] at inWord
        cases inWord
      | numeral => exact .wordNumeral
      | word => exact .words
    | string => cases goes
  · intro fuses
    cases fuses with
    | words => exact isWordChar_of_isWordStart opens
    | wordNumeral => exact isWordChar_of_isDigit opens
    | numerals => exact opens
    | equals member head =>
      rw [h] at head
      cases head
      exact decide_eq_true (Mark.joined?_of_mem member)
    | slashes =>
      cases h
      rfl

theorem fuses_iff {left right : Written config} :
    Fuses left right ↔ right.text.head?.any left.piece.goesOn = true := by
  obtain ⟨c, cs, spelled, opens⟩ := right.exists_text
  rw [← Written.goesOn_iff_fuses spelled opens, spelled]
  rfl

instance (left right : Written config) : Decidable (Fuses left right) :=
  decidable_of_iff _ fuses_iff.symm

instance (left : Written config) (gap : List Filler) (right : Written config) :
    Decidable (Separates left gap right) :=
  decidable_of_iff ((Fuses left right → gapText gap ≠ []) ∧
      (left.text = ['/'] → (gapText gap).head? ≠ some '/'))
    ⟨fun h => ⟨h.1, h.2⟩, fun h => ⟨h.1, h.2⟩⟩

theorem Written.goesOn_slash_iff (w : Written config) :
    w.piece.goesOn '/' = true ↔ w.text = ['/'] := by
  constructor
  · intro goes
    cases w with
    | mark m =>
      rcases Mark.joined?_cases (of_decide_eq_true goes) with ⟨-, other⟩ | ⟨rfl, -⟩
      · cases other
      · rfl
    | numeral | word | string => cases goes
  · intro slash
    obtain ⟨c, cs, spelled, opens⟩ := w.exists_text
    rw [slash] at spelled
    cases spelled
    cases w with
    | mark m =>
      rw [opens.2 rfl]
      rfl
    | numeral | word => cases opens
    | string => exact absurd rfl opens.2

theorem Written.goesOn_space (w : Written config) : w.piece.goesOn ' ' = false := by
  cases w with
  | mark m => cases m <;> rfl
  | numeral | word | string => rfl

theorem Written.goesOn_newline (w : Written config) : w.piece.goesOn '\n' = false :=
  Piece.goesOn_newline fun q body => by cases w <;> exact Piece.noConfusion

theorem Filler.exists_text (config : Config) (filler : Filler) :
    ∃ c cs, filler.text = c :: cs ∧
      ∀ w : Written config, w.piece.goesOn c = true ↔ w.text = ['/'] ∧ c = '/' := by
  cases filler with
  | space => exact ⟨' ', [], rfl, fun w => by simp [w.goesOn_space]⟩
  | newline => exact ⟨'\n', [], rfl, fun w => by simp [w.goesOn_newline]⟩
  | comment body plain => exact ⟨'/', _, rfl, fun w => by simp [w.goesOn_slash_iff]⟩

/-! ### Where a written token ends -/

theorem Mark.rule_end (m : Mark) : Rule m.spelling [] (.mark m) := by
  cases m with
  | slash => exact .regular (.slash nofun)
  | bang | equal | greater | less => exact .regular (.bare (by decide) rfl nofun)
  | bangEqual | equalEqual | greaterEqual | lessEqual => exact .regular (.paired (by decide) rfl)
  | _ => exact .regular (.solo (by decide) rfl)

theorem Written.rule_end (w : Written config) : Rule w.text [] w.piece := by
  cases w with
  | mark m => exact m.rule_end
  | numeral digits nonempty all small => exact .regular (.numeral nonempty all (endsBefore_nil _))
  | word spelling isWord => exact isWord.rule
  | string q body inside => exact .regular (.quoted inside)

/-- **A token ends before a gap and another token** just if the gap separates them. -/
theorem rule_iff_separates {left right : Written config} {gap : List Filler} {rest : List Char} :
    Rule left.text (gapText gap ++ (right.text ++ rest)) left.piece ↔ Separates left gap right := by
  cases gap with
  | nil =>
    obtain ⟨c, cs, spelled, opens⟩ := right.exists_text
    have fuses : left.piece.goesOn c = true ↔ Fuses left right :=
      Written.goesOn_iff_fuses spelled opens
    rw [gapText, List.flatMap_nil, List.nil_append, spelled, List.cons_append, Rule.cons_iff]
    constructor
    · rintro ⟨-, stops⟩
      refine ⟨fun together => ?_, fun _ => nofun⟩
      rw [fuses.2 together] at stops
      cases stops
    · intro separates
      exact ⟨left.rule_end, Bool.eq_false_iff.2 fun goes => separates.apart (fuses.1 goes) rfl⟩
  | cons filler gap =>
    obtain ⟨c, cs, spelled, goesOn⟩ := filler.exists_text config
    have shape : gapText (filler :: gap) = c :: (cs ++ gapText gap) := by
      rw [gapText, List.flatMap_cons, spelled]
      rfl
    rw [shape, List.cons_append, Rule.cons_iff]
    constructor
    · rintro ⟨-, stops⟩
      refine ⟨fun _ => by rw [shape]; exact List.cons_ne_nil _ _, fun slash second => ?_⟩
      rw [shape] at second
      rw [(goesOn left).2 ⟨slash, Option.some.inj second⟩] at stops
      cases stops
    · intro separates
      refine ⟨left.rule_end, Bool.eq_false_iff.2 fun goes => ?_⟩
      obtain ⟨slash, rfl⟩ := (goesOn left).1 goes
      exact separates.noComment slash (by rw [shape]; rfl)

/-! ### Tokens with gaps -/

/-- A written token with the gap before it. -/
structure Spaced (config : Config) where
  gap : List Filler
  token : Written config

namespace Spaced

def text (item : Spaced config) : List Char := gapText item.gap ++ item.token.text

def pieces (item : Spaced config) : List Piece :=
  item.gap.flatMap Filler.pieces ++ [item.token.piece]

end Spaced

theorem Written.text_piece (w : Written config) : w.piece.text = w.text := by
  cases w <;> rfl

theorem Filler.flatMap_text_pieces (filler : Filler) :
    filler.pieces.flatMap Piece.text = filler.text := by
  cases filler with
  | space | newline => rfl
  | comment body plain => simp [pieces, text, Piece.text]

theorem flatMap_text_gap (gap : List Filler) :
    (gap.flatMap Filler.pieces).flatMap Piece.text = gapText gap := by
  rw [List.flatMap_assoc, gapText]
  simp only [Filler.flatMap_text_pieces]

theorem flatMap_text_pieces (items : List (Spaced config)) :
    (items.flatMap Spaced.pieces).flatMap Piece.text = items.flatMap Spaced.text := by
  have single : ∀ item : Spaced config, item.pieces.flatMap Piece.text = item.text := by
    intro item
    rw [Spaced.pieces, List.flatMap_append, flatMap_text_gap, List.flatMap_singleton,
      Written.text_piece]
    rfl
  rw [List.flatMap_assoc]
  simp only [single]

theorem fitting_gap_append (gap : List Filler) {pieces : List Piece} (h : Fitting pieces) :
    Fitting (gap.flatMap Filler.pieces ++ pieces) := by
  induction gap with
  | nil => exact h
  | cons filler gap ih =>
    rw [List.flatMap_cons, List.append_assoc]
    cases filler with
    | space => exact ⟨.regular .space, ih⟩
    | newline => exact ⟨.regular .newline, ih⟩
    | comment body plain =>
      exact ⟨.regular (.comment plain (.inr rfl)), .regular .newline, ih⟩

/-- **Tokens with gaps that separate them fit** as they are written. -/
theorem fitting_pieces {items : List (Spaced config)}
    (separated : items.IsChain fun a b => Separates a.token b.gap b.token) :
    Fitting (items.flatMap Spaced.pieces) := by
  induction items with
  | nil => trivial
  | cons item items ih =>
    have ends : Rule item.token.piece.text ((items.flatMap Spaced.pieces).flatMap Piece.text)
        item.token.piece := by
      rw [flatMap_text_pieces, Written.text_piece]
      cases separated with
      | singleton => exact item.token.rule_end
      | @cons_cons _ next items separates _ =>
        rw [List.flatMap_cons, Spaced.text, List.append_assoc]
        exact rule_iff_separates.2 separates
    have others : items.IsChain fun a b => Separates a.token b.gap b.token := by
      cases separated with
      | singleton => exact .nil
      | cons_cons _ others => exact others
    rw [List.flatMap_cons, Spaced.pieces, List.append_assoc]
    exact fitting_gap_append item.gap ⟨ends, ih others⟩

theorem Written.gives (file : String) (w : Written config) (before : List Char) :
    ∃ t, Gives config file before w.piece [t] [] ∧ t.content = w.content := by
  cases w with
  | mark m => exact ⟨_, .mark m, rfl⟩
  | numeral digits nonempty all small => exact ⟨_, .integer digits small, rfl⟩
  | word spelling isWord =>
    rw [content]
    split
    · next keyword found => exact ⟨_, .keyword spelling keyword found, rfl⟩
    · next missing => exact ⟨_, .identifier spelling missing, rfl⟩
  | string q body inside => exact ⟨_, .quoted q body, rfl⟩

theorem isBlank_of_mem_gap {gap : List Filler} :
    ∀ piece ∈ gap.flatMap Filler.pieces, piece.isBlank = true := by
  intro piece member
  obtain ⟨filler, -, inside⟩ := List.mem_flatMap.1 member
  cases filler <;> simp [Filler.pieces] at inside <;> rcases inside with rfl | rfl <;> rfl

theorem readings_pieces (file : String) (items : List (Spaced config)) (before : List Char) :
    ∃ tokens, Readings config file before (items.flatMap Spaced.pieces) tokens [] ∧
      tokens.map Token.content = items.map (·.token.content) := by
  induction items generalizing before with
  | nil => exact ⟨[], .done before, rfl⟩
  | cons item items ih =>
    obtain ⟨t, gives, content⟩ := item.token.gives file
      (before ++ (item.gap.flatMap Filler.pieces).flatMap Piece.text)
    obtain ⟨tokens, readings, contents⟩ := ih _
    refine ⟨t :: tokens, ?_, by rw [List.map_cons, content, contents, List.map_cons]⟩
    rw [List.flatMap_cons, Spaced.pieces, List.append_assoc]
    exact (Readings.of_isBlank isBlank_of_mem_gap before).append (.step gives readings)

/-! ### Scans -/

/-- **Scanning undoes writing.** Tokens written one after the other, with gaps that separate them where
they would run together, are the tokens of the scan: the same kinds, lexemes and payloads in the same
order, without a diagnostic. -/
theorem scan_written (config : Config) (h : config.bits ≤ Limit.maxBits) (file : Option String)
    (items : List (Spaced config))
    (separated : items.IsChain fun a b => Separates a.token b.gap b.token) :
    ∃ tokens eof,
      scan (String.ofList (items.flatMap Spaced.text)) file config = .ok ⟨tokens ++ [eof], []⟩ ∧
      tokens.map Token.content = items.map (·.token.content) ∧ eof.content = (.eof, "", none) := by
  obtain ⟨tokens, readings, contents⟩ :=
    readings_pieces (config.fileName file) items []
  have cut : Piece.cut (String.ofList (items.flatMap Spaced.text)).toList =
      items.flatMap Spaced.pieces := by
    rw [String.toList_ofList]
    exact Piece.cut_eq_iff.2 ⟨fitting_pieces separated, flatMap_text_pieces items⟩
  rw [← cut] at readings
  exact ⟨tokens, _, scan_eq_of_readings h readings, contents, rfl⟩

/-- A word, a slash before a comment, two marks with a space between them, then a numeral, a word and a
string with nothing between them. -/
def Spaced.sample : List (Spaced Config.standard) :=
  [⟨[], .word ['a'] (by decide)⟩, ⟨[], .mark .slash⟩,
    ⟨[.space, .comment ['/'] (by decide)], .mark .equal⟩, ⟨[.space], .mark .equalEqual⟩,
    ⟨[], .numeral ['0', '1'] (by decide) (by decide) (by decide)⟩,
    ⟨[], .word ['f', 'n'] (by decide)⟩, ⟨[], .string .single ['"', '\n'] (by decide)⟩]

theorem scan_written_standard :
    Config.standard.bits ≤ Limit.maxBits ∧
      (Spaced.sample.IsChain fun a b => Separates a.token b.gap b.token) ∧
      ∃ tokens eof,
        scan (String.ofList (Spaced.sample.flatMap Spaced.text)) none Config.standard =
          .ok ⟨tokens ++ [eof], []⟩ ∧
        tokens.map Token.content = Spaced.sample.map (·.token.content) ∧
        eof.content = (.eof, "", none) :=
  ⟨by decide, by decide,
    scan_written Config.standard (by decide) none Spaced.sample (by decide)⟩

end Lexis

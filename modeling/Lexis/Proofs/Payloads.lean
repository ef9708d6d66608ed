import Lexis.Proofs.Words

/-!
# What kinds of tokens there are under a table

* `Token.Shaped config t`: the token has one of the six shapes that a scan makes;
* `t.Sound table greatest`: kind, lexeme and payload of the token go together, and go with the table of
  the settings as they were given.

Settings are only accepted if their table maps words to keywords, and no mark, numeral or end is spelled
like a word. So whatever the table, the keywords are the words of the table, other words come out as names,
and every other kind has its own spelling (`Shaped.sound`). `scan_tokens_sound` says this of all tokens of
a scan.
-/

namespace Lexis

/-- **The shapes of tokens**, wherever they stand. -/
inductive Token.Shaped (config : Config) : Token → Prop
  | mark (m location stop) : Shaped config ⟨.mark m, String.ofList m.spelling, none, location, stop⟩
  | string (s location stop) : Shaped config ⟨.string, s, some (.text s), location, stop⟩
  | integer (digits location stop) {n : Nat} : ¬ IsWord digits → n ≤ config.maxInteger →
      Shaped config ⟨.integer, String.ofList digits, some (.integer n), location, stop⟩
  | keyword (w k location stop) : config.keywords.get? w = some k →
      Shaped config ⟨.keyword k, w, some (.text w), location, stop⟩
  | name (w location stop) : IsWord w.toList → config.keywords.get? w = none →
      Shaped config ⟨.identifier, w, none, location, stop⟩
  | eof (location stop) : Shaped config ⟨.eof, "", none, location, stop⟩

/-- **Kind, lexeme and payload of a token** go together, and go with the table. -/
structure Token.Sound (table : Dictionary Scalar Target) (greatest : Nat) (t : Token) : Prop where
  integer : (∃ n, t.payload = some (.integer n)) ↔ t.kind = .integer
  range : ∀ n, t.payload = some (.integer n) → 0 ≤ n ∧ n ≤ greatest
  text : (∃ s, t.payload = some (.text s)) ↔ t.kind = .string ∨ t.kind.isKeyword = true
  same : ∀ s, t.payload = some (.text s) → s = t.lexeme
  bare : t.kind ≠ .integer → t.kind ≠ .string → t.kind.isKeyword = false → t.payload = none
  /-- The keywords are the tokens, but for strings, whose lexeme is in the table. -/
  keyword : t.kind.isKeyword = true ↔
    t.kind ≠ .string ∧ ∃ target, table.get? (.text t.lexeme) = some target
  mapped : t.kind.isKeyword = true → table.get? (.text t.lexeme) = some (.kind t.kind)
  name : t.kind = .identifier → IsWord t.lexeme.toList ∧ table.get? (.text t.lexeme) = none
  oneClass : ¬(t.kind.isLiteral = true ∧ t.kind.isKeyword = true) ∧
    ¬(t.kind.isLiteral = true ∧ t.kind = .identifier) ∧
    ¬(t.kind.isKeyword = true ∧ t.kind = .identifier)
  mark : ∀ m, t.kind = .mark m → t.lexeme = String.ofList m.spelling
  eof : t.kind = .eof → t.lexeme = ""
  /-- A word comes out as a keyword or a name, if it is not the contents of a string. -/
  word : IsWord t.lexeme.toList →
    t.kind = .string ∨ t.kind = .identifier ∨ t.kind.isKeyword = true

/-! ### Spellings that are no words -/

theorem Mark.not_isWord (m : Mark) : ¬ IsWord m.spelling := by
  cases m <;> decide

theorem not_isWord_of_isDigit {digits : List Char} (all : digits.all Char.isDigit = true) :
    ¬ IsWord digits := by
  intro isWord
  cases digits with
  | nil => exact isWord
  | cons c cs =>
    have digit := List.all_eq_true.1 all c List.mem_cons_self
    have letter := isWord.1
    rw [isWordStart_of_isDigit digit] at letter
    cases letter

/-! ### Shapes -/

variable {settings : Settings} {config : Config} {t : Token}

theorem Gives.shaped {file : String} {before rest : List Char} {piece : Piece}
    (rule : Rule piece.text rest piece) (h : Gives config file before piece [t] []) :
    t.Shaped config := by
  cases h with
  | mark m => exact .mark m _ _
  | quoted q body => exact .string _ _ _
  | integer digits small =>
    have noWord := not_isWord_of_isDigit rule.of_numeral.1
    exact .integer digits _ _ noWord small
  | keyword spelling keyword found => exact .keyword _ keyword _ _ found
  | identifier spelling missing =>
    have isWord := rule.of_word
    rw [← String.toList_ofList (l := spelling)] at isWord
    exact .name _ _ _ isWord missing

namespace Token.Shaped

theorem isWord (h : t.Shaped config) (isWord : IsWord t.lexeme.toList) :
    t.kind = .string ∨ t.kind = .identifier ∨ t.kind.isKeyword = true := by
  cases h with
  | mark m =>
    rw [String.toList_ofList] at isWord
    exact absurd isWord m.not_isWord
  | string => exact .inl rfl
  | integer digits _ _ noWord =>
    rw [String.toList_ofList] at isWord
    exact absurd isWord noWord
  | keyword => exact .inr (.inr rfl)
  | name => exact .inr (.inl rfl)
  | eof =>
    rw [String.toList_empty] at isWord
    exact isWord.elim

theorem isKeyword_of_get? (h : t.Shaped config) (noString : t.kind ≠ .string) {k : Keyword}
    (found : config.keywords.get? t.lexeme = some k) : t.kind = .keyword k := by
  have isWord := config.words _ (Dictionary.get?_eq_some_iff.1 found)
  rcases h.isWord isWord with string | name | keyword
  · exact absurd string noString
  · cases h with
    | name w _ _ _ missing =>
      rw [missing] at found
      cases found
    | _ => cases name
  · cases h with
    | keyword w other _ _ found' =>
      rw [found'] at found
      rw [Option.some.inj found]
    | _ => cases keyword

theorem get?_of_isKeyword (h : t.Shaped config) (keyword : t.kind.isKeyword = true) :
    ∃ k, t.kind = .keyword k ∧ config.keywords.get? t.lexeme = some k := by
  cases h with
  | keyword w k _ _ found => exact ⟨k, rfl, found⟩
  | _ => cases keyword

/-- **A token of one of the shapes is sound** under settings that give the config. -/
theorem sound (h : t.Shaped config) (give : settings.Give config) :
    t.Sound settings.table config.maxInteger where
  integer := by
    cases h <;> simp
  range := by
    intro n payload
    cases h with
    | integer digits _ _ _ small =>
      cases payload
      omega
    | _ => cases payload
  text := by
    cases h <;> simp [Kind.isKeyword]
  same := by
    intro s payload
    cases h with
    | string | keyword =>
      cases payload
      rfl
    | _ => cases payload
  bare := by
    intro noInteger noString noKeyword
    cases h with
    | string => exact absurd rfl noString
    | integer => exact absurd rfl noInteger
    | keyword => cases noKeyword
    | _ => rfl
  keyword := by
    rw [give.get?_table]
    constructor
    · intro keyword
      obtain ⟨k, kind, found⟩ := h.get?_of_isKeyword keyword
      rw [kind, found]
      exact ⟨Kind.noConfusion, _, rfl⟩
    · rintro ⟨noString, target, found⟩
      obtain ⟨k, found, -⟩ := Option.map_eq_some_iff.1 found
      rw [h.isKeyword_of_get? noString found]
      rfl
  mapped := by
    intro keyword
    obtain ⟨k, kind, found⟩ := h.get?_of_isKeyword keyword
    rw [give.get?_table, found, kind]
    rfl
  name := by
    intro kind
    cases h with
    | name w _ _ isWord missing =>
      rw [give.get?_table, missing]
      exact ⟨isWord, rfl⟩
    | _ => cases kind
  oneClass := by
    cases t.kind <;> simp [Kind.isLiteral, Kind.isKeyword]
  mark := by
    intro m kind
    cases h with
    | mark n =>
      cases kind
      rfl
    | _ => cases kind
  eof := by
    intro kind
    cases h with
    | eof => rfl
    | _ => cases kind
  word := h.isWord

end Token.Shaped

/-! ### Scans -/

/-- **All tokens of a scan are sound** under the table of the settings, if these are accepted; the token
of the end is there once, behind all others. -/
theorem scan_tokens_sound (settings : Settings) (config : Config)
    (accepted : Config.ofSettings settings = .ok config) (narrow : config.bits ≤ Limit.maxBits)
    (file : Option String) (source : String) :
    ∃ tokens eof diagnostics, scan source file config = .ok ⟨tokens ++ [eof], diagnostics⟩ ∧
      eof.kind = .eof ∧ (∀ t ∈ tokens, t.kind ≠ .eof) ∧
      ∀ t ∈ tokens ++ [eof], t.Sound settings.table config.maxInteger := by
  have give := Config.ofSettings_eq_ok_iff.1 accepted
  obtain ⟨tokens, diagnostics, scanned, readings⟩ := scan_readings narrow file source
  refine ⟨tokens, _, diagnostics, scanned, rfl, ?_, ?_⟩
  · intro t member
    obtain ⟨front, piece, behind, -, gives⟩ := readings.of_mem_token member
    exact gives.token_location.2.2
  · intro t member
    apply Token.Shaped.sound ?_ give
    rcases List.mem_append.1 member with inside | last
    · obtain ⟨front, piece, behind, -, rule, gives⟩ := readings.of_mem_token_cut inside
      exact gives.shaped rule
    · rw [List.mem_singleton.1 last]
      exact .eof _ _

/-- Settings that map a word to the end of the text at first, and to a keyword in the end. -/
def Settings.mended : Settings :=
  { keywords :=
      [(.text "let", .kind .eof), (.text "fn", .kind (.keyword .functionWord)),
        (.text "let", .kind (.keyword .forWord))] }

/-- The config of these settings. -/
def Config.mended : Config :=
  { Config.standard with
    keywords := ⟨[("let", .forWord), ("fn", .functionWord)], by decide⟩, words := by decide }

theorem scan_tokens_sound_mended :
    Config.ofSettings .mended = .ok Config.mended ∧ Config.mended.bits ≤ Limit.maxBits ∧
      ∃ tokens eof diagnostics,
        scan "let fn if 'let' 007 //" none Config.mended = .ok ⟨tokens ++ [eof], diagnostics⟩ ∧
        eof.kind = .eof ∧ (∀ t ∈ tokens, t.kind ≠ .eof) ∧
        ∀ t ∈ tokens ++ [eof], t.Sound Settings.mended.table Config.mended.maxInteger := by
  have accepted : Config.ofSettings .mended = .ok Config.mended :=
    Config.ofSettings_eq_ok_iff.2 ⟨rfl, rfl, rfl⟩
  have narrow : Config.mended.bits ≤ Limit.maxBits := by decide
  exact ⟨accepted, narrow,
    scan_tokens_sound .mended .mended accepted narrow none "let fn if 'let' 007 //"⟩

end Lexis

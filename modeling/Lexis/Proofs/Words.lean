import Lexis.Proofs.Acceptance
import Lexis.Proofs.Classification
import Lexis.Proofs.Observation
import Lexis.Proofs.Refusal

/-!
# What a word is, for tables and for scans

`ScansAsWord config file w`: a scan of `w` gives nothing but the token of one word, from the start of `w`
to its end, and the token of the end.

The check of a table asks of a spelling that all its characters can stand in a word; a scan looks at the
first character and takes what follows as far as the word goes. `scansAsWord_iff` says that both find the
same words, and `tables_accept_scanned_words` puts that in terms of the settings that are accepted and of
the scans under them. So every entry of a table is met by a text: the word itself.
-/

namespace Lexis

variable {config : Config} {before source : List Char} {piece : Piece}

/-! ### A word is scanned -/

theorem scan_withBits {source : String}
    (plain : ∀ piece ∈ Piece.cut source.toList, piece.isNumeral = false) (file : Option String)
    (bits : Nat) (pos : 0 < bits) :
    scan source file (config.withBits bits pos) = scan source file config :=
  congrArg Outcome.result (Reader.run_withBits plain bits pos)

theorem IsWord.cut {spelling : List Char} (h : IsWord spelling) :
    Piece.cut spelling = [.word spelling] := by
  have cut := Piece.cut_append h.rule
  rwa [List.append_nil, Piece.cut] at cut

/-- **The scan of a word**, under any width. -/
theorem scan_of_isWord (config : Config) (file : Option String) {w : String}
    (isWord : IsWord w.toList) :
    scan w file config =
      .ok ⟨[config.wordBehind (config.fileName file) [] w.toList,
        eofBehind (config.fileName file) w.toList], []⟩ := by
  have plain : ∀ piece ∈ Piece.cut w.toList, piece.isNumeral = false := by
    rw [isWord.cut]
    simp [Piece.isNumeral]
  let narrow := config.withBits 1 Nat.one_pos
  have short : narrow.bits ≤ Limit.maxBits := (by decide : 1 ≤ 14284)
  have scanned := scan_single short file isWord.rule (Gives.word_iff.2 ⟨rfl, rfl⟩)
  rw [String.ofList_toList, scan_withBits plain] at scanned
  exact scanned

/-! ### What is scanned as a word is one -/

/-- **The text is scanned as one word**, be it a keyword or a name. -/
def ScansAsWord (config : Config) (file : Option String) (w : String) : Prop :=
  ∃ t eof, scan w file config = .ok ⟨[t, eof], []⟩ ∧ eof.kind = .eof ∧
    (t.kind = .identifier ∨ t.kind.isKeyword = true) ∧ t.span = (0, (w.length : Int))

theorem Gives.exists_word {file : String} {t : Token} (h : Gives config file before piece [t] [])
    (kind : t.kind = .identifier ∨ t.kind.isKeyword = true) : ∃ spelling, piece = .word spelling := by
  cases h with
  | keyword spelling | identifier spelling => exact ⟨spelling, rfl⟩
  | _ => simp [Piece.tokenBehind, Kind.isKeyword] at kind

theorem Gives.text_eq_of_span {file : String} {t : Token} {rest : List Char}
    (h : Gives config file before piece [t] []) (whole : before ++ (piece.text ++ rest) = source)
    (span : t.span = (0, (source.length : Int))) : piece.text = source := by
  rw [h.token_span] at span
  obtain ⟨start, stop⟩ := Prod.mk.inj span
  have none : before = [] := by
    apply List.eq_nil_of_length_eq_zero
    omega
  subst none
  rw [List.nil_append] at whole stop
  have lengths := congrArg List.length whole
  rw [List.length_append] at lengths
  have ends : rest = [] := by
    apply List.eq_nil_of_length_eq_zero
    omega
  rw [← whole, ends, List.append_nil]

/-- **Words are what is scanned as one word.** -/
theorem scansAsWord_iff (h : config.bits ≤ Limit.maxBits) {file : Option String} {w : String} :
    ScansAsWord config file w ↔ IsWord w.toList := by
  constructor
  · rintro ⟨t, eof, scanned, -, kind, span⟩
    obtain ⟨tokens, diagnostics, scanned', readings⟩ := scan_readings h file w
    have lists := Except.ok.inj (scanned.symm.trans scanned')
    have both : [t] ++ [eof] = tokens ++ [eofBehind (config.fileName file) w.toList] :=
      (ScanResult.mk.inj lists).1
    obtain ⟨rfl, -⟩ := List.append_inj' both rfl
    obtain ⟨front, piece, behind, whole, rule, gives⟩ :=
      readings.of_mem_token_cut List.mem_cons_self
    obtain ⟨spelling, rfl⟩ := gives.exists_word kind
    rw [← String.length_toList] at span
    have text : spelling = w.toList := gives.text_eq_of_span whole span
    rw [← text]
    exact rule.of_word
  · intro isWord
    refine ⟨_, _, scan_of_isWord config file isWord, rfl, ?_, ?_⟩
    · unfold Config.wordBehind Config.classify
      cases config.keywords.get? (String.ofList w.toList) with
      | some keyword => exact .inr rfl
      | none => exact .inl rfl
    · rw [← String.length_toList]
      rfl

/-! ### The check of a table -/

/-- The settings where one word is set, and nothing else. -/
def Settings.single (w : String) (keyword : Keyword) : Settings :=
  { keywords := [(.text w, .kind (.keyword keyword))] }

theorem Settings.entries_single (w : String) (keyword : Keyword) :
    (Settings.single w keyword).table.entries = [(.text w, .kind (.keyword keyword))] := by
  rw [table_eq_ofList fun e member => ⟨w, by rw [List.mem_singleton.1 member]⟩]
  rfl

/-- The config where one word is set, and nothing else. -/
def Config.single {w : String} (isWord : IsWord w.toList) (keyword : Keyword) : Config :=
  { standard with
    keywords := ⟨[(w, keyword)], List.nodup_singleton w⟩
    words := List.forall_mem_singleton.2 isWord }

theorem Config.ofSettings_single_iff {w : String} {keyword : Keyword} :
    (∃ config, ofSettings (.single w keyword) = .ok config) ↔ IsWord w.toList := by
  constructor
  · rintro ⟨config, accepted⟩
    have give := ofSettings_eq_ok_iff.1 accepted
    have found : (Settings.single w keyword).table.get? (.text w) = some (.kind (.keyword keyword)) :=
      Dictionary.get?_eq_some_iff.2 (Settings.entries_single w keyword ▸ List.mem_cons_self)
    rw [give.get?_table, Option.map_eq_some_iff] at found
    obtain ⟨other, found, -⟩ := found
    exact config.words _ (Dictionary.get?_eq_some_iff.1 found)
  · intro isWord
    refine ⟨single isWord keyword, ofSettings_eq_ok_iff.2 ?_⟩
    exact ⟨rfl, rfl, Settings.entries_single w keyword⟩

/-- **Tables accept just what is scanned as a word**: the spelling of an entry is accepted if and only if
it is scanned as one word under all settings that are accepted. And every entry of a table is met: its
word is scanned as its keyword. -/
theorem tables_accept_scanned_words (w : String) (keyword : Keyword) (file : Option String) :
    ((∃ config, Config.ofSettings (.single w keyword) = .ok config) ↔
      ∀ settings config, Config.ofSettings settings = .ok config → config.bits ≤ Limit.maxBits →
        ScansAsWord config file w) ∧
      ∀ config : Config, (w, keyword) ∈ config.keywords.entries →
        ∃ t eof, scan w file config = .ok ⟨[t, eof], []⟩ ∧ t.kind = .keyword keyword ∧
          t.payload = some (.text w) ∧ eof.kind = .eof := by
  rw [Config.ofSettings_single_iff]
  constructor
  · constructor
    · intro isWord settings config _ narrow
      exact (scansAsWord_iff narrow).2 isWord
    · intro scans
      have narrow : Config.standard.bits ≤ Limit.maxBits := by decide
      have scanned := scans _ Config.standard Config.standard.ofSettings_given narrow
      exact (scansAsWord_iff narrow).1 scanned
  · intro config member
    have found := Dictionary.get?_eq_some_iff.2 member
    have scanned := scan_of_isWord config file (config.words _ member)
    refine ⟨_, _, scanned, ?_, ?_, rfl⟩
    · unfold Config.wordBehind Config.classify
      rw [String.ofList_toList, found]
      rfl
    · unfold Config.wordBehind Config.classify
      rw [String.ofList_toList, found]
      rfl

/-- The spelling `let` is accepted and scanned as a word, and it is met in the standard table. The
spellings `9x`, `a b` and the empty one are neither. -/
theorem tables_accept_scanned_words_let :
    (∃ config, Config.ofSettings (.single "let" .whileWord) = .ok config) ∧
      ScansAsWord Config.standard none "let" ∧
      (∃ t eof, scan "let" none Config.standard = .ok ⟨[t, eof], []⟩ ∧ t.kind = .keyword .letWord ∧
        t.payload = some (.text "let") ∧ eof.kind = .eof) ∧
      ∀ w ∈ ["9x", "a b", ""],
        ¬ ∃ config, Config.ofSettings (.single w .whileWord) = .ok config := by
  have accepted : ∃ config, Config.ofSettings (.single "let" .whileWord) = .ok config :=
    Config.ofSettings_single_iff.2 (by decide)
  have scans := (tables_accept_scanned_words "let" .whileWord none).1.1 accepted
  have standard := scans _ _ Config.standard.ofSettings_given (by decide)
  have met := (tables_accept_scanned_words "let" .letWord none).2 Config.standard (by decide)
  refine ⟨accepted, standard, met, ?_⟩
  intro w member
  rw [Config.ofSettings_single_iff]
  revert w
  decide

end Lexis

import Lexis.Config.Settings
import Lexis.Proofs.Dictionaries

/-!
# Settings that are accepted

* `settings.Give config`: the settings, as they are given, are those of the config;
* `config.given`: settings that give the config.

`Config.ofSettings_eq_ok_iff` says that settings are accepted just if they give a config, which is the
result then, and `Config.ofSettings_given` that every config is such a result. `Give.get?_table` says what
the table of accepted settings has a spelling mapped to.

Each check is the reverse of writing down what it makes: a width, an entry, a table.
-/

namespace Lexis

namespace Settings

/-- A word with its keyword, as an entry is given. -/
def given (e : String × Keyword) : Scalar × Target := (.text e.1, .kind (.keyword e.2))

theorem given_injective : Function.Injective given := by
  rintro ⟨w, k⟩ ⟨v, l⟩ same
  obtain ⟨spelling, target⟩ := Prod.mk.inj same
  cases spelling
  cases target
  rfl

/-- The settings are those of the config. -/
structure Give (settings : Settings) (config : Config) : Prop where
  bits : settings.bits = .scalar (.integer config.bits)
  file : settings.file = config.file
  entries : settings.table.entries = config.keywords.entries.map given

/-! ### The checks -/

theorem checkBits_eq_ok_iff {value : Value} {bits : { bits : Nat // 0 < bits }} :
    checkBits value = .ok bits ↔ value = .scalar (.integer bits.1) := by
  constructor
  · intro h
    unfold checkBits at h
    split at h
    · next width =>
      split at h
      · next positive =>
        cases h
        have same : ((width.toNat : Nat) : Int) = width := Int.toNat_of_nonneg (by omega)
        rw [same]
      · cases h
    · cases h
  · rintro rfl
    have positive : (1 : Int) ≤ bits.1 := by
      have := bits.2
      omega
    unfold checkBits
    dsimp only
    rw [dif_pos positive]
    rfl

theorem checkEntry_eq_ok_iff {e : Scalar × Target} {entry : Entry} :
    checkEntry e = .ok entry ↔ e = given entry.1 := by
  constructor
  · intro h
    unfold checkEntry at h
    split at h
    · cases h
    · split at h
      · split at h
        · cases h
          rfl
        · cases h
      · cases h
    · cases h
  · rintro rfl
    unfold checkEntry given
    dsimp only
    rw [dif_pos entry.2]

theorem checkEntries_given (entries : List Entry) :
    checkEntries ((entries.map (·.1)).map given) = .ok entries := by
  induction entries with
  | nil => rfl
  | cons entry entries ih =>
    rw [List.map_cons, List.map_cons, checkEntries, checkEntry_eq_ok_iff.2 rfl, ih]
    rfl

theorem checkEntries_eq_ok_iff {es : List (Scalar × Target)} {entries : List Entry} :
    checkEntries es = .ok entries ↔ es = (entries.map (·.1)).map given := by
  constructor
  · intro h
    induction es generalizing entries with
    | nil =>
      cases h
      rfl
    | cons e es ih =>
      unfold checkEntries at h
      cases first : checkEntry e with
      | error reason =>
        rw [first] at h
        cases h
      | ok entry =>
        cases later : checkEntries es with
        | error reason =>
          rw [first, later] at h
          cases h
        | ok others =>
          rw [first, later] at h
          cases h
          rw [List.map_cons, List.map_cons, checkEntry_eq_ok_iff.1 first, ih later]
  · rintro rfl
    exact checkEntries_given entries

/-! ### Tables of texts -/

theorem eq_text_of_key {k : Scalar} {w : String} (same : k.key = (Scalar.text w).key) :
    k = .text w := by
  cases k with
  | boolean value => cases same
  | double value =>
    -- its key is that of an integer, or itself
    cases whole : value.whole? with
    | some n => simp [Scalar.key, whole] at same
    | none => simp [Scalar.key, whole] at same
  | _ => exact same

theorem collect_text (d : Dictionary Scalar Target) (w : String) (target : Target) :
    collect d (.text w, target) = d.insert (.text w) target := by
  unfold collect
  dsimp only
  cases found : (d.entries.map (·.1)).find? (·.key = (Scalar.text w).key) with
  | none => rfl
  | some k =>
    have same := List.find?_some found
    rw [Option.getD_some, eq_text_of_key (of_decide_eq_true same)]

/-- **Where all spellings are texts**, the table is made of the pairs as they are. -/
theorem table_eq_ofList {settings : Settings}
    (texts : ∀ e ∈ settings.keywords, ∃ w, e.1 = .text w) :
    settings.table = .ofList settings.keywords := by
  unfold table Dictionary.ofList
  refine List.foldl_ext _ _ _ fun d e member => ?_
  obtain ⟨w, spelling⟩ := texts e member
  obtain ⟨_, target⟩ := e
  obtain rfl := spelling
  exact collect_text d w target

/-! ### Accepted settings -/

theorem Give.unique {settings : Settings} {config other : Config} (h : settings.Give config)
    (h' : settings.Give other) : config = other := by
  obtain ⟨⟨words, _⟩, bits, file, _, _⟩ := config
  obtain ⟨⟨words', _⟩, bits', file', _, _⟩ := other
  have width : ((bits : Nat) : Int) = bits' := by
    have same := h.bits.symm.trans h'.bits
    cases same
    rfl
  obtain rfl : bits = bits' := Int.ofNat.inj width
  obtain rfl : file = file' := h.file.symm.trans h'.file
  have table : words.map given = words'.map given := h.entries.symm.trans h'.entries
  obtain rfl : words = words' := (List.map_injective_iff.2 given_injective) table
  rfl

end Settings

open Settings

theorem Settings.give_of_check {settings : Settings} {config : Config}
    (h : settings.check = .ok config) : settings.Give config := by
  unfold check at h
  split at h
  · cases h
  · next bits width =>
    split at h
    · cases h
    · next entries table =>
      cases h
      exact ⟨checkBits_eq_ok_iff.1 width, rfl, checkEntries_eq_ok_iff.1 table⟩

theorem Config.checkEntries_keywords (config : Config) :
    ∃ entries, checkEntries (config.keywords.entries.map given) = .ok entries := by
  let entries : List Entry := config.keywords.entries.attachWith _ config.words
  have words : entries.map (·.1) = config.keywords.entries := List.attachWith_map_subtype_val _
  have checked := checkEntries_given entries
  rw [words] at checked
  exact ⟨entries, checked⟩

theorem Settings.check_eq_ok_iff {settings : Settings} {config : Config} :
    settings.check = .ok config ↔ settings.Give config := by
  constructor
  · exact give_of_check
  · intro give
    have width : checkBits settings.bits = .ok ⟨config.bits, config.bits_pos⟩ :=
      checkBits_eq_ok_iff.2 give.bits
    obtain ⟨entries, table⟩ := config.checkEntries_keywords
    rw [← give.entries] at table
    cases accepted : settings.check with
    | error reason =>
      unfold check at accepted
      split at accepted
      · next fault =>
        rw [width] at fault
        cases fault
      · split at accepted
        · next fault =>
          rw [table] at fault
          cases fault
        · cases accepted
    | ok other => rw [(give_of_check accepted).unique give]

/-- **Settings are accepted just if they are those of a config**, and that config is the result. -/
theorem Config.ofSettings_eq_ok_iff {settings : Settings} {config : Config} :
    ofSettings settings = .ok config ↔ settings.Give config := by
  rw [← check_eq_ok_iff, ofSettings]
  cases settings.check with
  | error violation => exact ⟨nofun, nofun⟩
  | ok other => simp only [Except.mapError, Except.ok.injEq]

/-- The settings that a config is made of. -/
def Config.given (config : Config) : Settings where
  keywords := config.keywords.entries.map Settings.given
  bits := .scalar (.integer config.bits)
  file := config.file

/-- **Every config comes from settings that are accepted.** -/
theorem Config.ofSettings_given (config : Config) : ofSettings config.given = .ok config := by
  have distinct : ((config.keywords.entries.map Settings.given).map (·.1)).Nodup := by
    have texts := config.keywords.distinct.map (f := Scalar.text) fun _ _ => Scalar.text.inj
    rw [List.map_map] at texts ⊢
    exact texts
  have texts : ∀ e ∈ config.given.keywords, ∃ w, e.1 = .text w := by
    intro e member
    obtain ⟨entry, -, rfl⟩ := List.mem_map.1 member
    exact ⟨entry.1, rfl⟩
  refine ofSettings_eq_ok_iff.2 ⟨rfl, rfl, ?_⟩
  rw [table_eq_ofList texts]
  exact Dictionary.entries_ofList distinct

/-- **What accepted settings map a spelling to** is what their config maps it to. -/
theorem Settings.Give.get?_table {settings : Settings} {config : Config}
    (h : settings.Give config) (w : String) :
    settings.table.get? (.text w) =
      (config.keywords.get? w).map fun keyword => Target.kind (.keyword keyword) := by
  apply Option.ext
  intro target
  rw [Dictionary.get?_eq_some_iff, h.entries, List.mem_map, Option.map_eq_some_iff]
  constructor
  · rintro ⟨⟨v, keyword⟩, member, same⟩
    cases same
    exact ⟨keyword, Dictionary.get?_eq_some_iff.2 member, rfl⟩
  · rintro ⟨keyword, found, rfl⟩
    exact ⟨(w, keyword), Dictionary.get?_eq_some_iff.1 found, rfl⟩

end Lexis

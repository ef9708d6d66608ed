import Lexis.Config
import Lexis.Value

/-!
Settings as they are given, and the check that makes a `Config` of them. The width is checked before
the table, and the table entry by entry in the order of the dictionary that its pairs build, so the
error is always that of the first fault. An error shows what the check has found; where that holds a number
that is too long to be written, the error is that of writing it.
-/

namespace Lexis

/-- What a spelling is mapped to: a kind, or something that is none. -/
inductive Target
  | kind (kind : Kind)
  | other (value : Value)

/-- Settings that were not checked. A field that is not given has its standard value. -/
structure Settings where
  keywords : List (Scalar × Target) :=
    Keyword.standard.map fun (spelling, keyword) => (.text spelling, .kind (.keyword keyword))
  bits : Value := .scalar (.integer Config.standardBits)
  file : String := Config.unknownFile

namespace Settings

/-- What a check finds against settings. -/
inductive Violation
  /-- The width is no integer. -/
  | bitsNotInteger (bits : Value)
  /-- The width is not positive. -/
  | bitsTooSmall (bits : Int)
  /-- A spelling is mapped to something that is no kind. -/
  | notKind (spelling : Scalar) (value : Value)
  /-- A spelling is mapped to a kind that is no keyword. -/
  | notKeyword (spelling : Scalar) (kind : Kind)
  /-- A spelling is no word. -/
  | notWord (spelling : Scalar)

/-- The words for it, unless they hold a number that is too long to be written. -/
def Violation.text : Violation → Except Decimal.TooLong String
  | bitsNotInteger bits => .ok ("integer_bits must be an int, got " ++ bits.typeName)
  | bitsTooSmall bits => do
    let bits ← Decimal.writeInt bits
    return "integer_bits must be at least 1, got " ++ bits
  | notKind spelling value => do
    let spelling ← spelling.shown
    let value ← value.shown
    return "keyword " ++ spelling ++ " maps to " ++ value ++ ", not a TokenType"
  | notKeyword spelling kind => do
    let spelling ← spelling.shown
    return "keyword " ++ spelling ++ " maps to non-keyword kind " ++ kind.name
  | notWord spelling => do
    let spelling ← spelling.shown
    return "keyword " ++ spelling ++ " is not a valid identifier spelling"

end Settings

/-- Why settings are refused. -/
inductive ConfigError
  /-- What the first check that they fail has found, in its words. -/
  | violation (violation : Settings.Violation) (text : String)
  /-- That check has no words for what it has found. -/
  | tooLong (reason : Decimal.TooLong)

/-- The wording of the refusal. -/
def ConfigError.message : ConfigError → String
  | violation _ text => text
  | tooLong reason => reason.message

namespace Settings

/-- The error that a check gives for what it has found. -/
def Violation.error (violation : Violation) : ConfigError :=
  match violation.text with
  | .ok text => .violation violation text
  | .error reason => .tooLong reason

/-- An entry of a table all of whose spellings are words. -/
abbrev Entry := { e : String × Keyword // IsWord e.1.toList }

/-- The width, if it is a positive integer. -/
def checkBits : Value → Except Violation { bits : Nat // 0 < bits }
  | .scalar (.integer bits) =>
    if h : 1 ≤ bits then .ok ⟨bits.toNat, by omega⟩ else .error (.bitsTooSmall bits)
  | value => .error (.bitsNotInteger value)

/-- The entry, if it maps a word to a keyword. The target is checked before the spelling. -/
def checkEntry : Scalar × Target → Except Violation Entry
  | (spelling, .other value) => .error (.notKind spelling value)
  | (spelling, .kind (.keyword keyword)) =>
    match spelling with
    | .text word =>
      if h : IsWord word.toList then .ok ⟨(word, keyword), h⟩ else .error (.notWord spelling)
    | _ => .error (.notWord spelling)
  | (spelling, .kind kind) => .error (.notKeyword spelling kind)

/-- The table, if all its entries pass, with the entries in the same order. -/
def checkEntries : List (Scalar × Target) → Except Violation (List Entry)
  | [] => .ok []
  | e :: es => do
    let entry ← checkEntry e
    let entries ← checkEntries es
    return entry :: entries

/-- The dictionary with one more pair. Its spelling goes by the one that is there already as the same
key, if there is one. -/
def collect (d : Dictionary Scalar Target) (e : Scalar × Target) : Dictionary Scalar Target :=
  d.insert (((d.entries.map (·.1)).find? (·.key = e.1.key)).getD e.1) e.2

/-- The dictionary of the given pairs: a spelling given twice keeps its first place and form and its last
target. -/
def table (settings : Settings) : Dictionary Scalar Target := settings.keywords.foldl collect .empty

theorem checkEntry_spelling {e : Scalar × Target} {entry : Entry}
    (h : checkEntry e = .ok entry) : e.1 = .text entry.1.1 := by
  unfold checkEntry at h
  split at h
  · cases h
  · split at h
    · split at h
      · cases h
        rfl
      · cases h
    · cases h
  · cases h

theorem checkEntries_spellings {es : List (Scalar × Target)} {entries : List Entry}
    (h : checkEntries es = .ok entries) :
    es.map (·.1) = entries.map fun entry => .text entry.1.1 := by
  induction es generalizing entries with
  | nil => cases h; rfl
  | cons e es ih =>
    unfold checkEntries at h
    cases hd : checkEntry e with
    | error _ => rw [hd] at h; cases h
    | ok entry =>
      cases tl : checkEntries es with
      | error _ => rw [hd, tl] at h; cases h
      | ok rest =>
        rw [hd, tl] at h
        cases h
        rw [List.map_cons, List.map_cons, checkEntry_spelling hd, ih tl]

theorem nodup_of_checkEntries {d : Dictionary Scalar Target} {entries : List Entry}
    (h : checkEntries d.entries = .ok entries) :
    ((entries.map (·.1)).map (·.1)).Nodup := by
  have distinct := d.distinct
  rw [checkEntries_spellings h] at distinct
  have texts : (((entries.map (·.1)).map (·.1)).map Scalar.text).Nodup := by
    simpa [Function.comp_def] using distinct
  exact List.Pairwise.of_map (S := (· ≠ ·)) Scalar.text (fun _ _ ne eq => ne (eq ▸ rfl)) texts

/-- The checked settings, or what the first check that they fail has found: that of the width, or that of the
first entry of the table that fails one. -/
def check (settings : Settings) : Except Violation Config :=
  match checkBits settings.bits with
  | .error violation => .error violation
  | .ok bits =>
    match h : checkEntries settings.table.entries with
    | .error violation => .error violation
    | .ok entries => .ok
      { keywords := ⟨entries.map (·.1), nodup_of_checkEntries h⟩
        bits := bits.1
        file := settings.file
        words := by
          intro e he
          obtain ⟨entry, _, rfl⟩ := List.mem_map.1 he
          exact entry.2
        bits_pos := bits.2 }

end Settings

/-- The checked settings, or the error of the first check that they fail. -/
def Config.ofSettings (settings : Settings) : Except ConfigError Config :=
  settings.check.mapError Settings.Violation.error

end Lexis

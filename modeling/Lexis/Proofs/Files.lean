import Lexis.Proofs.Encoding
import Lexis.Proofs.EntryPoints
import Lexis.Proofs.Locations

/-!
# Files and texts

* `WellFormed bytes`: the bytes are the encoding of a text;
* `ReadsAs path bytes source`: a file of these bytes gives what the text gives under the name `path`, with
  places that count the characters of the text;
* `FirstFlaw bytes m`: the report is on the sequence behind the longest well-formed beginning of the bytes.

`tokenizeFile_reads` says that a file with the encoding of a text reads as that text, and that any other
file is refused with a report on its first flaw.
-/

namespace Lexis

open Text

/-- The bytes are the encoding of a text. -/
def WellFormed (bytes : List UInt8) : Prop := ∃ source : String, source.toUTF8.data.toList = bytes

/-- **A file of these bytes reads as the text.** -/
structure ReadsAs (path : String) (bytes : List UInt8) (source : String) : Prop where
  /-- No character is left out or replaced. -/
  decoded : Utf8.decode bytes = .ok source.toList
  outcome : tokenizeFile path (.file bytes) = (tokenizeString source path).mapError .fault
  /-- Places count characters, not bytes. -/
  tokens : ∀ ts, tokenizeFile path (.file bytes) = .ok ts →
    ∀ t ∈ ts, t.location.Exact source.toList path
  fault : ∀ d, tokenizeFile path (.file bytes) = .error (.fault d) →
    d.location.Exact source.toList path

/-- **The report is on the first flaw of the bytes.** -/
structure FirstFlaw (bytes : List UInt8) (m : Utf8.Malformed) : Prop where
  wellFormed : WellFormed (bytes.take m.position)
  longest : ∀ n, WellFormed (bytes.take n) → n ≤ m.position
  inside : m.position + m.bytes.length ≤ bytes.length
  reported : (bytes.drop m.position).take m.bytes.length = m.bytes
  count : 1 ≤ m.bytes.length ∧ m.bytes.length ≤ 3

/-! ### Well-formed bytes -/

theorem wellFormed_iff {bytes : List UInt8} :
    WellFormed bytes ↔ ∃ cs, Utf8.encode cs = bytes := by
  constructor
  · rintro ⟨source, encoded⟩
    exact ⟨source.toList, (Utf8.encode_toList source).trans encoded⟩
  · rintro ⟨cs, encoded⟩
    refine ⟨String.ofList cs, ?_⟩
    rw [← Utf8.encode_toList, String.toList_ofList, encoded]

theorem decode_toUTF8 (source : String) :
    Utf8.decode source.toUTF8.data.toList = .ok source.toList := by
  rw [← Utf8.encode_toList, Utf8.decode_encode]

theorem exists_malformed {bytes : List UInt8} (h : ¬ WellFormed bytes) :
    ∃ m, Utf8.decode bytes = .error m := by
  cases read : Utf8.decode bytes with
  | ok cs => exact absurd (wellFormed_iff.2 ⟨cs, Utf8.decode_eq_ok_iff.1 read⟩) h
  | error m => exact ⟨m, rfl⟩

/-! ### The first flaw -/

/-- **What fails is reported at its first flaw.** -/
theorem firstFlaw_of_error {bytes : List UInt8} {m : Utf8.Malformed}
    (failed : Utf8.decode bytes = .error m) : FirstFlaw bytes m := by
  have decoded := Utf8.decoded_decode bytes
  rw [failed] at decoded
  cases decoded with
  | flaw cs _ rest whole place short =>
    rw [Nat.zero_add] at place
    have length : m.bytes.length = m.others.length + 1 := List.length_cons
    have lengths := congrArg List.length whole
    rw [List.length_append, List.length_append] at lengths
    refine ⟨wellFormed_iff.2 ⟨cs, ?_⟩, ?_, by omega, ?_, by omega⟩
    · rw [← whole, place, List.take_left]
    · intro n wellFormed
      obtain ⟨ds, encoded⟩ := wellFormed_iff.1 wellFormed
      have starts : Utf8.encode ds ++ bytes.drop n = bytes := by
        rw [encoded, List.take_append_drop]
      have bound := Utf8.length_encode_le_of_error failed starts
      rw [encoded, List.length_take] at bound
      omega
    · rw [← whole, place, List.drop_left, List.take_left]

/-! ### Texts -/

theorem tokenizeFile_of_decode (path : String) {bytes : List UInt8} {source : String}
    (read : Utf8.decode bytes = .ok source.toList) :
    tokenizeFile path (.file bytes) = (tokenizeString source path).mapError .fault := by
  simp only [tokenizeFile, read, String.ofList_toList]

/-- **What is read as a text gives what the text gives.** -/
theorem readsAs_of_decode {path : String} {bytes : List UInt8} {source : String}
    (read : Utf8.decode bytes = .ok source.toList) : ReadsAs path bytes source := by
  have outcome := tokenizeFile_of_decode path read
  have narrow : Config.standard.bits ≤ Limit.maxBits := by decide
  obtain ⟨tokens, diagnostics, scanned, readings⟩ := scan_readings narrow (some path) source
  obtain ⟨exact, exactFaults⟩ := readings.location_exact
  cases diagnostics with
  | nil =>
    have text : tokenizeString source path = .ok _ := tokenizeString_of_clean scanned rfl
    refine ⟨read, outcome, fun ts given => ?_, fun d given => ?_⟩
    · rw [outcome, text] at given
      cases given
      exact exact
    · rw [outcome, text] at given
      cases given
  | cons first later =>
    have text : tokenizeString source path = .error first := tokenizeString_of_fault scanned rfl
    refine ⟨read, outcome, fun ts given => ?_, fun d given => ?_⟩
    · rw [outcome, text] at given
      cases given
    · rw [outcome, text] at given
      cases given
      exact exactFaults _ List.mem_cons_self

/-- **A file gives what its text gives.** Every text is read from its own encoding; bytes that are the
encoding of no text are refused, whatever stands before their first flaw. -/
theorem tokenizeFile_reads (path : String) :
    (∀ source : String, ReadsAs path source.toUTF8.data.toList source) ∧
      ∀ bytes, ¬ WellFormed bytes →
        ∃ m, tokenizeFile path (.file bytes) = .error (.malformed m) ∧ FirstFlaw bytes m := by
  refine ⟨fun source => readsAs_of_decode (decode_toUTF8 source), fun bytes illFormed => ?_⟩
  obtain ⟨m, failed⟩ := exists_malformed illFormed
  exact ⟨m, by simp only [tokenizeFile, failed], firstFlaw_of_error failed⟩

/-- A stray character, and behind it the first two bytes of an encoding of three. -/
def truncated : List UInt8 := [0x40, 0xE2, 0x82, 0x28]

/-- The flaw is reported with its two bytes, and not the stray character before it. -/
theorem tokenizeFile_reads_truncated :
    ¬ WellFormed truncated ∧
      ReadsAs "a.mk" "\ufeff'é\r\n€' = 1".toUTF8.data.toList "\ufeff'é\r\n€' = 1" ∧
      ∃ m, tokenizeFile "a.mk" (.file truncated) = .error (.malformed m) ∧
        FirstFlaw truncated m ∧ m = ⟨1, 0xE2, [0x82], .continuation⟩ := by
  obtain ⟨texts, others⟩ := tokenizeFile_reads "a.mk"
  have failed : Utf8.decode truncated = .error ⟨1, 0xE2, [0x82], .continuation⟩ := by decide
  have illFormed : ¬ WellFormed truncated := by
    rintro ⟨source, encoded⟩
    have read := decode_toUTF8 source
    rw [encoded, failed] at read
    cases read
  obtain ⟨m, refused, flaw⟩ := others truncated illFormed
  refine ⟨illFormed, texts _, m, refused, flaw, ?_⟩
  rw [tokenizeFile, failed] at refused
  cases refused
  rfl

end Lexis

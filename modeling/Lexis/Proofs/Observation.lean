import Lexis.Proofs.Dictionaries
import Lexis.Proofs.Readings

/-!
# What scans show of a config

Configs that are the same scan every text alike (`Config.Same.scan_eq`), in whatever order their tables
are. Conversely a scan of the empty text shows the name of a config (`scan_empty`), that of a number
whether the width has room for it (`scan_number`), and that of a word what it is mapped to (`scan_word`).
`a.probes b` are texts of these three kinds, enough of them to show every difference between two configs
(`Config.same_of_probes`). So `same_iff_scans_agree` says that two configs are the same just if all scans
under them agree.
-/

namespace Lexis

variable {a b config : Config}

/-! ### The same config -/

theorem Reader.read_congr (reader other : Reader) (file : reader.file = other.file)
    (limit : reader.limit = other.limit)
    (words : ∀ w, reader.keywords.get? w = other.keywords.get? w) (start : Position)
    (piece : Piece) : reader.read start piece = other.read start piece := by
  obtain ⟨_, _, _⟩ := reader
  obtain ⟨_, _, _⟩ := other
  obtain rfl := file
  obtain rfl := limit
  cases piece with
  | word spelling => simp only [read, word, words, token]
  | _ => rfl

theorem Config.Same.outcome_eq (same : a.Same b) (file : String) (source : List Char) :
    a.outcome file source = b.outcome file source := by
  obtain ⟨bits, -, keywords⟩ := same
  have limit : a.limit = b.limit := congrArg Limit.ofBits bits
  have words := Dictionary.same_iff_get?.1 keywords
  refine (a.reader file).run_congr (b.reader file) rfl (fun piece _ start => ?_) .start
  exact (a.reader file).read_congr (b.reader file) rfl limit words start piece

/-- **The same configs scan alike**, whether the scan is stopped or not. -/
theorem Config.Same.scan_eq (same : a.Same b) (source : String) (file : Option String) :
    scan source file a = scan source file b := by
  have name : a.fileName file = b.fileName file := congrArg file.getD same.2.1
  rw [scan, scan, name, same.outcome_eq]

/-! ### What a text shows -/

theorem scan_single (h : config.bits ≤ Limit.maxBits) (file : Option String) {text : List Char}
    {piece : Piece} {tokens : List Token} {diagnostics : List Diagnostic} (rule : Rule text [] piece)
    (gives : Gives config (config.fileName file) [] piece tokens diagnostics) :
    scan (String.ofList text) file config =
      .ok ⟨tokens ++ [eofBehind (config.fileName file) text], diagnostics⟩ := by
  have cut : Piece.cut text = [piece] := by
    have cut := Piece.cut_append rule
    rwa [List.append_nil, Piece.cut] at cut
  have readings : Readings config (config.fileName file) [] (Piece.cut text) tokens diagnostics := by
    have readings := Readings.step gives (.done _)
    rwa [List.append_nil, List.append_nil, ← cut] at readings
  rw [← String.toList_ofList (l := text)] at readings
  have scanned := scan_eq_of_readings h readings
  rwa [String.toList_ofList] at scanned

theorem scan_empty (h : config.bits ≤ Limit.maxBits) :
    scan "" none config = .ok ⟨[eofBehind config.file []], []⟩ := by
  have readings : Readings config (config.fileName none) [] (Piece.cut "".toList) [] [] := by
    rw [String.toList_empty, Piece.cut]
    exact .done []
  exact scan_eq_of_readings h readings

theorem scan_number (h : config.bits ≤ Limit.maxBits) (n : Nat) :
    ∃ result, scan (Decimal.ofNat n) none config = .ok result ∧
      (result.diagnostics = [] ↔ n ≤ config.maxInteger) := by
  have all : (Nat.toDigits 10 n).all Char.isDigit = true :=
    List.all_eq_true.2 fun c member => Nat.isDigit_of_mem_toDigits (by decide) (by decide) member
  have rule : Rule (Nat.toDigits 10 n) [] (.numeral (Nat.toDigits 10 n)) :=
    .regular (.numeral Nat.toDigits_ne_nil all (endsBefore_nil _))
  have value : Decimal.value (Nat.toDigits 10 n) = n := Nat.ofDigitChars_ten_toDigits
  rcases Nat.lt_or_ge config.maxInteger n with large | small
  · refine ⟨_, scan_single h none rule (.overflow _ (by omega)), fun none => ?_, fun small => ?_⟩
    · cases none
    · omega
  · exact ⟨_, scan_single h none rule (.integer _ (by omega)), fun _ => small, fun _ => rfl⟩

theorem scan_word (h : config.bits ≤ Limit.maxBits) {w : String} (isWord : IsWord w.toList) :
    ∃ result, scan w none config = .ok result ∧ ∀ keyword,
      (∃ t ∈ result.tokens, t.kind = .keyword keyword) ↔ config.keywords.get? w = some keyword := by
  have scanned {tokens : List Token}
      (gives : Gives config config.file [] (.word w.toList) tokens []) :
      scan w none config = .ok ⟨tokens ++ [eofBehind config.file w.toList], []⟩ := by
    have scanned := scan_single h none isWord.rule gives
    rwa [String.ofList_toList] at scanned
  cases found : config.keywords.get? w with
  | some keyword =>
    rw [← String.ofList_toList (s := w)] at found
    refine ⟨_, scanned (.keyword _ keyword found), fun other => ?_⟩
    simp [Piece.tokenBehind, eofBehind]
  | none =>
    rw [← String.ofList_toList (s := w)] at found
    refine ⟨_, scanned (.identifier _ found), fun other => ?_⟩
    simp [Piece.tokenBehind, eofBehind]

/-! ### Texts that show every difference -/

/-- The empty text, the least number that is too large for one of the configs, and the words of both
tables. -/
def Config.probes (a b : Config) : List String :=
  "" :: Decimal.ofNat (min a.maxInteger b.maxInteger + 1) ::
    (a.keywords.entries ++ b.keywords.entries).map (·.1)

theorem Limit.eq_of_greatest_eq {m n : Nat} (same : greatest m = greatest n) : m = n := by
  have powers : 2 ^ m = 2 ^ n := by
    have pos := Nat.two_pow_pos m
    have pos' := Nat.two_pow_pos n
    have same : 2 ^ m - 1 = 2 ^ n - 1 := same
    omega
  exact (Nat.pow_right_inj Nat.one_lt_two).1 powers

section

variable (narrow : a.bits ≤ Limit.maxBits) (narrow' : b.bits ≤ Limit.maxBits)
include narrow narrow'

theorem Config.file_eq_of_scan (same : scan "" none a = scan "" none b) : a.file = b.file := by
  rw [scan_empty narrow, scan_empty narrow'] at same
  have eofs := (ScanResult.mk.inj (Except.ok.inj same)).1
  exact congrArg (fun t : Token => t.location.file) (List.singleton_inj.1 eofs)

theorem Config.bits_eq_of_scan
    (same : scan (Decimal.ofNat (min a.maxInteger b.maxInteger + 1)) none a =
      scan (Decimal.ofNat (min a.maxInteger b.maxInteger + 1)) none b) : a.bits = b.bits := by
  obtain ⟨result, scanned, small⟩ := scan_number narrow (min a.maxInteger b.maxInteger + 1)
  obtain ⟨other, scanned', small'⟩ := scan_number narrow' (min a.maxInteger b.maxInteger + 1)
  rw [scanned, scanned'] at same
  obtain rfl := Except.ok.inj same
  have both := small.symm.trans small'
  have maxima : a.maxInteger = b.maxInteger := by omega
  exact Limit.eq_of_greatest_eq maxima

theorem Config.mem_keywords_of_scan {w : String} {keyword : Keyword}
    (same : scan w none a = scan w none b) (member : (w, keyword) ∈ a.keywords.entries) :
    (w, keyword) ∈ b.keywords.entries := by
  have isWord : IsWord w.toList := a.words _ member
  obtain ⟨result, scanned, mapped⟩ := scan_word narrow isWord
  obtain ⟨other, scanned', mapped'⟩ := scan_word narrow' isWord
  rw [scanned, scanned'] at same
  obtain rfl := Except.ok.inj same
  rw [← Dictionary.get?_eq_some_iff] at member ⊢
  exact (mapped' keyword).1 ((mapped keyword).2 member)

end

/-- **The probes show every difference.** -/
theorem Config.same_of_probes (narrow : a.bits ≤ Limit.maxBits) (narrow' : b.bits ≤ Limit.maxBits)
    (same : ∀ source ∈ a.probes b, scan source none a = scan source none b) : a.Same b := by
  obtain ⟨empty, others⟩ := List.forall_mem_cons.1 same
  obtain ⟨number, words⟩ := List.forall_mem_cons.1 others
  refine ⟨bits_eq_of_scan narrow narrow' number, file_eq_of_scan narrow narrow' empty, ?_⟩
  refine Dictionary.same_iff_mem.2 fun ⟨w, keyword⟩ => ⟨fun member => ?_, fun member => ?_⟩
  · have probe := words w (List.mem_map.2 ⟨_, List.mem_append_left _ member, rfl⟩)
    exact mem_keywords_of_scan narrow narrow' probe member
  · have probe := words w (List.mem_map.2 ⟨_, List.mem_append_right _ member, rfl⟩)
    exact mem_keywords_of_scan narrow' narrow probe.symm member

/-- **Two configs are the same** just if the scans of every text under both give the same tokens and the
same diagnostics. -/
theorem same_iff_scans_agree (narrow : a.bits ≤ Limit.maxBits) (narrow' : b.bits ≤ Limit.maxBits) :
    a.Same b ↔ ∀ source : String, ∃ result,
      scan source none a = .ok result ∧ scan source none b = .ok result := by
  constructor
  · intro same source
    obtain ⟨tokens, diagnostics, scanned, -⟩ := scan_readings narrow none source
    exact ⟨_, scanned, (same.scan_eq source none).symm.trans scanned⟩
  · intro agree
    refine Config.same_of_probes narrow narrow' fun source _ => ?_
    obtain ⟨result, scanned, scanned'⟩ := agree source
    exact scanned.trans scanned'.symm

/-- The standard settings with their table in the other order. -/
def Config.reversed : Config :=
  { Config.standard with keywords := ⟨Keyword.standard.reverse, by decide⟩, words := by decide }

/-- The order of the table is not seen in any scan, but a bit more is. -/
theorem same_iff_scans_agree_reversed :
    Config.standard.bits ≤ Limit.maxBits ∧ Config.reversed.bits ≤ Limit.maxBits ∧
      (∀ source : String, ∃ result,
        scan source none Config.standard = .ok result ∧
          scan source none Config.reversed = .ok result) ∧
      ∃ wider : Config, wider.bits ≤ Limit.maxBits ∧ ¬ ∀ source : String, ∃ result,
        scan source none Config.standard = .ok result ∧ scan source none wider = .ok result := by
  refine ⟨by decide, by decide, (same_iff_scans_agree (by decide) (by decide)).1 (by decide),
    { Config.standard with bits := 33, bits_pos := by decide }, by decide, fun agree => ?_⟩
  have same := (same_iff_scans_agree (by decide) (by decide)).2 agree
  exact absurd same.1 (by decide)

end Lexis

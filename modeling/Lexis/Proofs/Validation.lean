import Lexis.Proofs.Acceptance
import Lexis.Proofs.Wording

/-!
# The first fault of settings

* `Settings.Collected pairs entries`: the entries are what the pairs build, each spelling where it is given
  first and with the target that it is given last;
* `Settings.Passes e`: the entry maps a word to a keyword;
* `Settings.EntryFault e violation`: the violation is what the first check that the entry fails finds;
* `Settings.FirstFault settings violation`: the violation is what the first check that the settings fail
  finds.

`collected_table` says what the table of settings is, and `ofSettings_eq_error_iff` that settings are
refused for their first fault, with the error that tells it. Neither a target that is replaced by a later
pair nor anything behind the first fault matters: `ofSettings_first_fault`.
-/

namespace Lexis.Settings

/-! ### What pairs build -/

/-- The spellings without those that are the same key as one before. -/
def firsts : List Scalar → List Scalar
  | [] => []
  | k :: ks => k :: (firsts ks).filter fun l => l.key ≠ k.key

/-- What the spelling is mapped to by the last pair that has it as its key. -/
def lastTarget (pairs : List (Scalar × Target)) (k : Scalar) : Option Target :=
  (pairs.reverse.find? fun e => e.1.key = k.key).map (·.2)

/-- **The entries are what the pairs build**: each spelling has the place and form of the first pair with
its key, and the target of the last. -/
def Collected (pairs entries : List (Scalar × Target)) : Prop :=
  (entries.map fun e => (e.1, some e.2)) =
    (firsts (pairs.map (·.1))).map fun k => (k, lastTarget pairs k)

/-! ### First spellings -/

theorem nodup_firsts (ks : List Scalar) : ((firsts ks).map Scalar.key).Nodup := by
  refine List.pairwise_map.2 ?_
  induction ks with
  | nil => exact .nil
  | cons k ks ih =>
    refine .cons (fun l member same => ?_) (ih.filter _)
    exact of_decide_eq_true (List.mem_filter.1 member).2 same.symm

theorem mem_of_mem_firsts {ks : List Scalar} {k : Scalar} (member : k ∈ firsts ks) : k ∈ ks := by
  induction ks with
  | nil => cases member
  | cons m ks ih =>
    rcases List.mem_cons.1 member with rfl | later
    · exact List.mem_cons_self
    · exact List.mem_cons_of_mem _ (ih (List.mem_filter.1 later).1)

theorem exists_mem_firsts {ks : List Scalar} {k : Scalar} (member : k ∈ ks) :
    ∃ l ∈ firsts ks, l.key = k.key := by
  induction ks with
  | nil => cases member
  | cons m ks ih =>
    by_cases same : m.key = k.key
    · exact ⟨m, List.mem_cons_self, same⟩
    · have later : k ∈ ks := (List.mem_cons.1 member).resolve_left fun eq => same (eq ▸ rfl)
      obtain ⟨l, found, key⟩ := ih later
      refine ⟨l, List.mem_cons_of_mem _ (List.mem_filter.2 ⟨found, ?_⟩), key⟩
      exact decide_eq_true fun eq => same (eq.symm.trans key)

theorem firsts_concat_of_fresh {ks : List Scalar} {k : Scalar} (fresh : ∀ l ∈ ks, l.key ≠ k.key) :
    firsts (ks ++ [k]) = firsts ks ++ [k] := by
  induction ks with
  | nil => rfl
  | cons m ks ih =>
    obtain ⟨first, others⟩ := List.forall_mem_cons.1 fresh
    have kept : [k].filter (fun l => l.key ≠ m.key) = [k] :=
      List.filter_cons_of_pos (decide_eq_true (Ne.symm first))
    rw [List.cons_append, firsts, ih others, List.filter_append, kept]
    rfl

theorem firsts_concat_of_seen {ks : List Scalar} {k : Scalar} (seen : ∃ l ∈ ks, l.key = k.key) :
    firsts (ks ++ [k]) = firsts ks := by
  induction ks with
  | nil =>
    obtain ⟨l, member, -⟩ := seen
    cases member
  | cons m ks ih =>
    by_cases later : ∃ l ∈ ks, l.key = k.key
    · rw [List.cons_append, firsts, ih later, firsts]
    · have fresh : ∀ l ∈ ks, l.key ≠ k.key := fun l member same => later ⟨l, member, same⟩
      have first : k.key = m.key := by
        obtain ⟨l, member, same⟩ := seen
        rcases List.mem_cons.1 member with rfl | other
        · exact same.symm
        · exact absurd same (fresh l other)
      have dropped : [k].filter (fun l => l.key ≠ m.key) = [] :=
        List.filter_cons_of_neg (by simpa using first)
      rw [List.cons_append, firsts, firsts_concat_of_fresh fresh, List.filter_append, dropped,
        List.append_nil, firsts]

/-! ### The table of settings -/

theorem lastTarget_concat (pairs : List (Scalar × Target)) (e : Scalar × Target) (k : Scalar) :
    lastTarget (pairs ++ [e]) k = if e.1.key = k.key then some e.2 else lastTarget pairs k := by
  unfold lastTarget
  rw [List.reverse_concat, List.find?_cons]
  by_cases same : e.1.key = k.key
  · simp [same]
  · simp [same]

theorem Collected.keys {pairs entries : List (Scalar × Target)} (h : Collected pairs entries) :
    entries.map (·.1) = firsts (pairs.map (·.1)) := by
  have keys := congrArg (List.map Prod.fst) h
  simpa [Function.comp_def] using keys

section

variable {pairs : List (Scalar × Target)} {d : Dictionary Scalar Target} {e : Scalar × Target}
  (h : Collected pairs d.entries)
include h

theorem Collected.collect_of_fresh (fresh : ∀ k ∈ pairs.map (·.1), k.key ≠ e.1.key) :
    Collected (pairs ++ [e]) (collect d e).entries := by
  have unknown : (d.entries.map (·.1)).find? (·.key = e.1.key) = none := by
    rw [h.keys]
    refine List.find?_eq_none.2 fun k member => ?_
    simpa using fresh k (mem_of_mem_firsts member)
  have outside : e.1 ∉ d.entries.map (·.1) := by
    rw [h.keys]
    exact fun member => fresh e.1 (mem_of_mem_firsts member) rfl
  have entries : (collect d e).entries = d.entries ++ [e] := by
    show Dictionary.put d.entries (((d.entries.map (·.1)).find? (·.key = e.1.key)).getD e.1) e.2 = _
    rw [unknown, Option.getD_none, Dictionary.put_of_not_mem outside]
  have others : (firsts (pairs.map (·.1))).map (fun k => (k, lastTarget (pairs ++ [e]) k)) =
      (firsts (pairs.map (·.1))).map fun k => (k, lastTarget pairs k) := by
    refine List.map_congr_left fun k member => ?_
    rw [lastTarget_concat, if_neg fun same => fresh k (mem_of_mem_firsts member) same.symm]
  unfold Collected
  rw [entries, List.map_append, h, List.map_append, List.map_singleton, List.map_singleton,
    firsts_concat_of_fresh fresh, List.map_append, others, List.map_singleton, lastTarget_concat,
    if_pos rfl]

theorem Collected.collect_of_seen (seen : ∃ k ∈ pairs.map (·.1), k.key = e.1.key) :
    Collected (pairs ++ [e]) (collect d e).entries := by
  obtain ⟨k, member, same⟩ := seen
  obtain ⟨first, listed, key⟩ := exists_mem_firsts member
  have isSome : ((d.entries.map (·.1)).find? (·.key = e.1.key)).isSome = true := by
    rw [h.keys]
    exact List.find?_isSome.2 ⟨first, listed, decide_eq_true (key.trans same)⟩
  obtain ⟨known, found⟩ := Option.isSome_iff_exists.1 isSome
  have inside := List.mem_of_find?_eq_some found
  have knownKey : known.key = e.1.key := by simpa using List.find?_some found
  have entries : (collect d e).entries =
      d.entries.map fun x => if x.1 = known then (x.1, e.2) else x := by
    show Dictionary.put d.entries (((d.entries.map (·.1)).find? (·.key = e.1.key)).getD e.1) e.2 = _
    rw [found, Option.getD_some, Dictionary.put_of_mem d.distinct inside]
  -- no other of the first spellings has the key of the one that is known
  have only : ∀ l ∈ firsts (pairs.map (·.1)), l = known ↔ e.1.key = l.key := by
    intro l listed
    rw [h.keys] at inside
    refine ⟨fun eq => eq ▸ knownKey.symm, fun eq => ?_⟩
    exact List.inj_on_of_nodup_map (nodup_firsts _) listed inside (eq.symm.trans knownKey.symm)
  unfold Collected
  rw [List.map_append, List.map_singleton, firsts_concat_of_seen ⟨k, member, same⟩, entries]
  calc (d.entries.map fun x => if x.1 = known then (x.1, e.2) else x).map (fun x => (x.1, some x.2))
    _ = (d.entries.map fun x => (x.1, some x.2)).map
          fun x => if x.1 = known then (x.1, some e.2) else x := by
      rw [List.map_map, List.map_map]
      refine List.map_congr_left fun x _ => ?_
      by_cases here : x.1 = known
      · simp [here]
      · simp [here]
    _ = _ := by
      rw [h, List.map_map]
      refine List.map_congr_left fun l listed => ?_
      have only := only l listed
      by_cases here : l = known
      · simp [here, lastTarget_concat, knownKey]
      · have other : ¬ e.1.key = l.key := fun eq => here (only.2 eq)
        simp [here, lastTarget_concat, other]

theorem Collected.collect : Collected (pairs ++ [e]) (collect d e).entries := by
  by_cases seen : ∃ k ∈ pairs.map (·.1), k.key = e.1.key
  · exact h.collect_of_seen seen
  · exact h.collect_of_fresh fun k member same => seen ⟨k, member, same⟩

end

/-- **The table of settings is what their pairs build.** -/
theorem collected_table (settings : Settings) :
    Collected settings.keywords settings.table.entries := by
  unfold table
  induction settings.keywords using List.reverseRecOn with
  | nil => exact rfl
  | append_singleton pairs e ih =>
    rw [List.foldl_append]
    exact ih.collect

theorem Collected.unique {pairs es es' : List (Scalar × Target)} (h : Collected pairs es)
    (h' : Collected pairs es') : es = es' := by
  refine List.map_injective_iff.2 ?_ (Eq.trans h (Eq.symm h'))
  rintro ⟨k, target⟩ ⟨k', target'⟩ same
  cases same
  rfl

theorem lastTarget_replaced {front behind : List (Scalar × Target)} {k : Scalar}
    (later : ∃ e ∈ behind, e.1.key = k.key) (target other : Target) (l : Scalar) :
    lastTarget (front ++ (k, other) :: behind) l = lastTarget (front ++ (k, target) :: behind) l := by
  unfold lastTarget
  simp only [List.reverse_append, List.reverse_cons, List.find?_append]
  by_cases same : k.key = l.key
  · have found : (behind.reverse.find? fun e => e.1.key = l.key).isSome = true := by
      obtain ⟨e, member, key⟩ := later
      exact List.find?_isSome.2 ⟨e, List.mem_reverse.2 member, decide_eq_true (key.trans same)⟩
    obtain ⟨e, found⟩ := Option.isSome_iff_exists.1 found
    simp [found]
  · simp [same]

theorem entries_table_replaced {settings : Settings} {front behind : List (Scalar × Target)}
    {k : Scalar} {target : Target} (split : settings.keywords = front ++ (k, target) :: behind)
    (later : ∃ e ∈ behind, e.1.key = k.key) (other : Target) :
    { settings with keywords := front ++ (k, other) :: behind }.table.entries =
      settings.table.entries := by
  have replaced := collected_table { settings with keywords := front ++ (k, other) :: behind }
  have same : Collected settings.keywords
      { settings with keywords := front ++ (k, other) :: behind }.table.entries := by
    unfold Collected at replaced ⊢
    rw [replaced, split]
    simp only [List.map_append, List.map_cons, lastTarget_replaced later target other]
  exact same.unique (collected_table settings)

/-! ### Checks -/

/-- The width is an integer and not below one. -/
def WidthPasses (bits : Value) : Prop := ∃ n : Int, bits = .scalar (.integer n) ∧ 1 ≤ n

/-- **The entry maps a word to a keyword.** -/
def Passes (e : Scalar × Target) : Prop :=
  ∃ (w : String) (keyword : Keyword), e = (.text w, .kind (.keyword keyword)) ∧ IsWord w.toList

/-- What the first check finds that a width fails: it has to be an integer, and not below one. -/
inductive WidthFault : Value → Violation → Prop
  | notInteger {bits} : (∀ n, bits ≠ .scalar (.integer n)) → WidthFault bits (.bitsNotInteger bits)
  | tooSmall {n} : n < 1 → WidthFault (.scalar (.integer n)) (.bitsTooSmall n)

/-- **What the first check finds that an entry fails**: its target has to be a kind, that of a keyword, and
its spelling a word. -/
inductive EntryFault : Scalar × Target → Violation → Prop
  | notKind (k value) : EntryFault (k, .other value) (.notKind k value)
  | notKeyword (k) {kind} : kind.isKeyword = false →
      EntryFault (k, .kind kind) (.notKeyword k kind)
  | notWord {k} (keyword) : (∀ w, k = .text w → ¬ IsWord w.toList) →
      EntryFault (k, .kind (.keyword keyword)) (.notWord k)

/-- **What the first check finds that settings fail**: those of the width come first, and then those of one
entry after the other. -/
inductive FirstFault (settings : Settings) : Violation → Prop
  | width {violation} : WidthFault settings.bits violation → FirstFault settings violation
  | entry {front e behind violation} : WidthPasses settings.bits →
      settings.table.entries = front ++ e :: behind → (∀ x ∈ front, Passes x) →
      EntryFault e violation → FirstFault settings violation

theorem checkBits_eq_error_iff {bits : Value} {violation : Violation} :
    checkBits bits = .error violation ↔ WidthFault bits violation := by
  constructor
  · intro h
    unfold checkBits at h
    split at h
    · split at h
      · cases h
      · next small =>
        cases h
        exact .tooSmall (by omega)
    · next other =>
      cases h
      exact .notInteger fun n eq => other n eq
  · intro h
    cases h with
    | notInteger other =>
      unfold checkBits
      split
      · next n => exact absurd rfl (other n)
      · rfl
    | @tooSmall n small => exact dif_neg (by omega)

theorem passes_iff {e : Scalar × Target} : Passes e ↔ ∃ entry, checkEntry e = .ok entry := by
  constructor
  · rintro ⟨w, keyword, rfl, isWord⟩
    exact ⟨⟨(w, keyword), isWord⟩, checkEntry_eq_ok_iff.2 rfl⟩
  · rintro ⟨⟨⟨w, keyword⟩, isWord⟩, passed⟩
    exact ⟨w, keyword, checkEntry_eq_ok_iff.1 passed, isWord⟩

theorem checkEntry_eq_error_iff {e : Scalar × Target} {violation : Violation} :
    checkEntry e = .error violation ↔ EntryFault e violation := by
  constructor
  · intro h
    unfold checkEntry at h
    split at h
    · cases h
      exact .notKind _ _
    · split at h
      · split at h
        · cases h
        · next noWord =>
          cases h
          exact .notWord _ fun w eq => by cases eq; exact noWord
      · next noText =>
        cases h
        exact .notWord _ fun w eq => absurd eq (noText w)
    · next spelling kind noKeyword =>
      cases h
      refine .notKeyword _ ?_
      cases kind with
      | keyword k => exact absurd rfl (noKeyword k)
      | _ => rfl
  · intro h
    cases h with
    | notKind k value => rfl
    | @notKeyword k kind other =>
      cases kind with
      | keyword => cases other
      | _ => rfl
    | @notWord k keyword noWord =>
      cases k with
      | text w => exact dif_neg (noWord w rfl)
      | _ => rfl

/-! ### The first fault -/

theorem checkEntries_cons_of_ok {e : Scalar × Target} {entry : Entry} (passed : checkEntry e = .ok entry)
    (es : List (Scalar × Target)) :
    checkEntries (e :: es) = (checkEntries es).map (entry :: ·) := by
  rw [checkEntries, passed]
  cases checkEntries es with
  | error _ => rfl
  | ok _ => rfl

/-- **The check of the table stops at the first entry with a fault.** -/
theorem checkEntries_eq_error_iff {es : List (Scalar × Target)} {violation : Violation} :
    checkEntries es = .error violation ↔
      ∃ front e behind, es = front ++ e :: behind ∧ (∀ x ∈ front, Passes x) ∧
        EntryFault e violation := by
  constructor
  · intro h
    induction es with
    | nil => cases h
    | cons e es ih =>
      cases first : checkEntry e with
      | error reason =>
        rw [checkEntries, first] at h
        cases h
        exact ⟨[], e, es, rfl, by simp, checkEntry_eq_error_iff.1 first⟩
      | ok entry =>
        rw [checkEntries_cons_of_ok first] at h
        cases later : checkEntries es with
        | error reason =>
          rw [later] at h
          cases h
          obtain ⟨front, x, behind, rfl, passes, fault⟩ := ih later
          refine ⟨e :: front, x, behind, rfl, ?_, fault⟩
          exact List.forall_mem_cons.2 ⟨passes_iff.2 ⟨entry, first⟩, passes⟩
        | ok entries =>
          rw [later] at h
          cases h
  · rintro ⟨front, e, behind, rfl, passes, fault⟩
    induction front with
    | nil =>
      rw [List.nil_append, checkEntries, checkEntry_eq_error_iff.2 fault]
      rfl
    | cons x front ih =>
      obtain ⟨first, others⟩ := List.forall_mem_cons.1 passes
      obtain ⟨entry, passed⟩ := passes_iff.1 first
      rw [List.cons_append, checkEntries_cons_of_ok passed, ih others]
      rfl

theorem widthPasses_iff {bits : Value} : WidthPasses bits ↔ ∃ width, checkBits bits = .ok width := by
  constructor
  · rintro ⟨n, rfl, positive⟩
    exact ⟨_, dif_pos positive⟩
  · rintro ⟨width, passed⟩
    refine ⟨width.1, checkBits_eq_ok_iff.1 passed, ?_⟩
    have := width.2
    omega

theorem check_eq_error_iff {settings : Settings} {violation : Violation} :
    settings.check = .error violation ↔ FirstFault settings violation := by
  constructor
  · intro refused
    unfold check at refused
    split at refused
    · next fault =>
      cases refused
      exact .width (checkBits_eq_error_iff.1 fault)
    · next width passed =>
      split at refused
      · next fault =>
        cases refused
        obtain ⟨front, e, behind, split, passes, fault⟩ := checkEntries_eq_error_iff.1 fault
        exact .entry (widthPasses_iff.2 ⟨width, passed⟩) split passes fault
      · cases refused
  · rintro (fault | ⟨width, split, passes, fault⟩)
    · unfold check
      rw [checkBits_eq_error_iff.2 fault]
    · obtain ⟨bits, passed⟩ := widthPasses_iff.1 width
      have refused := checkEntries_eq_error_iff.2 ⟨_, _, _, split, passes, fault⟩
      unfold check
      rw [passed]
      dsimp only
      split
      · next other =>
        rw [refused] at other
        cases other
        rfl
      · next accepted =>
        rw [refused] at accepted
        cases accepted

/-- **Settings are refused for their first fault**, with the error that its check gives for it. -/
theorem ofSettings_eq_error_iff {settings : Settings} {error : ConfigError} :
    Config.ofSettings settings = .error error ↔
      ∃ violation, FirstFault settings violation ∧ violation.Told error := by
  unfold Config.ofSettings
  simp only [← check_eq_error_iff, Violation.told_iff]
  cases settings.check with
  | error violation => simp [Except.mapError]
  | ok config => simp [Except.mapError]

/-- **Settings are accepted just if they pass every check.** -/
theorem exists_ofSettings_eq_ok_iff {settings : Settings} :
    (∃ config, Config.ofSettings settings = .ok config) ↔
      WidthPasses settings.bits ∧ ∀ e ∈ settings.table.entries, Passes e := by
  constructor
  · rintro ⟨config, accepted⟩
    have give := Config.ofSettings_eq_ok_iff.1 accepted
    refine ⟨⟨config.bits, give.bits, by have := config.bits_pos; omega⟩, fun e member => ?_⟩
    rw [give.entries] at member
    obtain ⟨⟨w, keyword⟩, listed, rfl⟩ := List.mem_map.1 member
    exact ⟨w, keyword, rfl, config.words _ listed⟩
  · rintro ⟨width, passes⟩
    cases result : settings.check with
    | ok config => exact ⟨config, Config.ofSettings_eq_ok_iff.2 (check_eq_ok_iff.1 result)⟩
    | error violation =>
      rcases check_eq_error_iff.1 result with fault | ⟨-, split, -, fault⟩
      · obtain ⟨bits, passed⟩ := widthPasses_iff.1 width
        cases passed.symm.trans (checkBits_eq_error_iff.2 fault)
      · rw [split] at passes
        have passes := passes _ (List.mem_append_right _ List.mem_cons_self)
        obtain ⟨entry, passed⟩ := passes_iff.1 passes
        cases passed.symm.trans (checkEntry_eq_error_iff.2 fault)

theorem ofSettings_congr {settings other : Settings} (bits : other.bits = settings.bits)
    (file : other.file = settings.file) (entries : other.table.entries = settings.table.entries) :
    Config.ofSettings other = Config.ofSettings settings := by
  unfold Config.ofSettings
  refine congrArg _ ?_
  cases result : settings.check with
  | ok config =>
    have give := check_eq_ok_iff.1 result
    exact check_eq_ok_iff.2 ⟨bits.trans give.bits, file.trans give.file, entries.trans give.entries⟩
  | error violation =>
    refine check_eq_error_iff.2 ?_
    rcases check_eq_error_iff.1 result with fault | ⟨width, split, passes, fault⟩
    · exact .width (bits ▸ fault)
    · exact .entry (bits ▸ width) (entries.trans split) passes fault

/-- **The check of settings is exact, and an error is that of the first fault.** The table is what the
pairs build. Settings are accepted just if they pass every check, and then their config has that table,
in its order; otherwise the error is the one that the first check they fail gives for what it finds: its own
words, unless they hold an integer that is too long to be written. A target that a later pair replaces does
not matter. -/
theorem ofSettings_first_fault (settings : Settings) :
    Collected settings.keywords settings.table.entries ∧
    ((∃ config, Config.ofSettings settings = .ok config) ↔
      WidthPasses settings.bits ∧ ∀ e ∈ settings.table.entries, Passes e) ∧
    (∀ config, Config.ofSettings settings = .ok config → settings.Give config) ∧
    (∀ error, Config.ofSettings settings = .error error ↔
      ∃ violation, FirstFault settings violation ∧ violation.Told error) ∧
    ∀ front k target other behind, settings.keywords = front ++ (k, target) :: behind →
      (∃ e ∈ behind, e.1.key = k.key) →
      Config.ofSettings { settings with keywords := front ++ (k, other) :: behind } =
        Config.ofSettings settings := by
  refine ⟨collected_table settings, exists_ofSettings_eq_ok_iff, fun config => ?_, fun error => ?_, ?_⟩
  · exact Config.ofSettings_eq_ok_iff.1
  · exact ofSettings_eq_error_iff
  · intro front k target other behind split later
    exact ofSettings_congr rfl rfl (entries_table_replaced split later other)

/-- The kind of no keyword that "let" is mapped to at first is replaced, and so is the keyword that 1 is
mapped to, which the pair with the truth value replaces: the fault is that of 1, the second entry. Nothing
changes if "let" is mapped to something else at first. A number of 4301 digits is no kind either, but it is
too long to be shown. -/
theorem ofSettings_first_fault_replaced :
    let keywords (first : Target) : List (Scalar × Target) :=
      [(.text "let", first), (.integer 1, .kind (.keyword .letWord)),
        (.text "let", .kind (.keyword .forWord)), (.boolean true, .other (.scalar (.integer 5)))]
    let tooLong : Int := (Nat.pow 10 Decimal.maxDigits : Nat)
    Config.ofSettings { keywords := keywords (.kind .eof) } =
        .error (.violation (.notKind (.integer 1) (.scalar (.integer 5)))
          "keyword 1 maps to 5, not a TokenType") ∧
      Config.ofSettings { keywords := keywords (.other (.list [])) } =
        Config.ofSettings { keywords := keywords (.kind .eof) } ∧
      Config.ofSettings { keywords := [(.text "let", .other (.scalar (.integer tooLong)))] } =
        .error (.tooLong .number) := by
  intro keywords tooLong
  obtain ⟨-, -, -, fault, replaced⟩ := ofSettings_first_fault { keywords := keywords (.kind .eof) }
  have width : WidthPasses (.scalar (.integer Config.standardBits)) := ⟨_, rfl, by decide⟩
  have first : Passes (.text "let", .kind (.keyword .forWord)) := ⟨"let", .forWord, rfl, by decide⟩
  have front : ∀ x ∈ [((.text "let", .kind (.keyword .forWord)) : Scalar × Target)], Passes x :=
    List.forall_mem_singleton.2 first
  have short : ∀ n ∈ [(1 : Int), 5], Decimal.Short n := by
    unfold Decimal.Short
    decide +kernel
  refine ⟨(fault _).2 ⟨_, .entry width rfl front (.notKind _ _), .words short ?_⟩, ?_, ?_⟩
  · decide +kernel
  · refine replaced [] (.text "let") (.kind .eof) (.other (.list [])) _ rfl ?_
    exact ⟨(.text "let", .kind (.keyword .forWord)), List.mem_cons_of_mem _ List.mem_cons_self, rfl⟩
  · let settings : Settings := { keywords := [(.text "let", .other (.scalar (.integer tooLong)))] }
    obtain ⟨-, -, -, fault, -⟩ := ofSettings_first_fault settings
    have entries : settings.table.entries = [] ++ settings.keywords := rfl
    have long : ¬ Decimal.Short tooLong := by
      unfold Decimal.Short
      rw [Int.natAbs_natCast]
      exact Nat.lt_irrefl _
    refine (fault _).2 ⟨_, .entry width entries (by simp) (.notKind _ _), ?_⟩
    exact .tooLong ⟨tooLong, List.mem_singleton_self _, long⟩

end Lexis.Settings

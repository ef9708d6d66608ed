import Lexis.Proofs.Reports

/-!
# Written forms that show where they end

* `SelfDelimiting write`: from `write a` and whatever stands behind it, both can be told;
* `EndedBy stop write`: so they can if the character `stop` stands between them;
* `Text.Escaped q c cs`: between quotes `q`, the characters `cs` stand for the character `c`.

A text between quotes shows where it ends (`Text.selfDelimiting_quote`): the first character tells the
quotes, what stands for a character shows where it ends (`Text.selfDelimiting_escape`), and the closing
quote opens nothing that stands for a character. A numeral is ended by any character that belongs to no
numeral (`Decimal.endedBy_ofInt`), and it is read as the number that it was written for
(`Decimal.intValue_ofInt`).
-/

namespace Lexis

variable {α : Type} {write : α → List Char} {stop : Char}

/-- The written form shows where it ends: what is written and what stands behind it can both be told
from the two together. -/
def SelfDelimiting (write : α → List Char) : Prop :=
  ∀ ⦃a b : α⦄ ⦃r s : List Char⦄, write a ++ r = write b ++ s → a = b ∧ r = s

/-- The written form shows where it ends if the character `stop` stands behind it. -/
def EndedBy (stop : Char) (write : α → List Char) : Prop :=
  ∀ ⦃a b : α⦄ ⦃r s : List Char⦄, write a ++ stop :: r = write b ++ stop :: s → a = b ∧ r = s

theorem EndedBy.of_not_mem (inj : Function.Injective write) (free : ∀ a, stop ∉ write a) :
    EndedBy stop write := by
  intro a b r s same
  have ends (rest : List Char) : EndsBefore (· ≠ stop) (stop :: rest) :=
    endsBefore_ne_iff.2 (.inr rfl)
  have front := congrArg (List.takeWhile (· ≠ stop)) same
  have behind := congrArg (List.dropWhile (· ≠ stop)) same
  rw [takeWhile_run (all_ne_of_not_mem (free a)) (ends r),
    takeWhile_run (all_ne_of_not_mem (free b)) (ends s)] at front
  rw [dropWhile_run (all_ne_of_not_mem (free a)) (ends r),
    dropWhile_run (all_ne_of_not_mem (free b)) (ends s)] at behind
  exact ⟨inj front, (List.cons.inj behind).2⟩

theorem SelfDelimiting.endedBy_flatMap (h : SelfDelimiting write)
    (opens : ∀ a, ∃ c cs, write a = c :: cs ∧ c ≠ stop) :
    EndedBy stop fun as : List α => as.flatMap write := by
  intro as bs r s same
  induction as generalizing bs with
  | nil =>
    cases bs with
    | nil => simpa using same
    | cons b bs =>
      obtain ⟨c, cs, written, ne⟩ := opens b
      simp [written, ne.symm] at same
  | cons a as ih =>
    cases bs with
    | nil =>
      obtain ⟨c, cs, written, ne⟩ := opens a
      simp [written, ne] at same
    | cons b bs =>
      simp only [List.flatMap_cons, List.append_assoc] at same
      obtain ⟨rfl, rest⟩ := h same
      obtain ⟨rfl, behind⟩ := ih rest
      exact ⟨rfl, behind⟩

/-! ### Texts between quotes -/

theorem Quote.char_injective : Function.Injective Quote.char := by
  intro p q same
  have both := congrArg ofChar? same
  rw [ofChar?_char, ofChar?_char] at both
  exact Option.some.inj both

namespace Text

theorem Hex.lower_injective : ∀ i < 16, ∀ j < 16, lower i = lower j → i = j := by decide

/-- The character that a letter behind a backslash stands for by itself. -/
def lettered? : Char → Option Char
  | '\\' => some '\\'
  | '\'' => some '\''
  | '"' => some '"'
  | 't' => some '\t'
  | 'n' => some '\n'
  | 'r' => some '\r'
  | _ => none

/-- How many digits follow a letter behind a backslash, where they give the character by number. -/
def digitsBehind? : Char → Option Nat
  | 'x' => some 2
  | 'u' => some 4
  | 'U' => some 8
  | _ => none

/-- Between quotes `q`, these characters stand for the character `c`. -/
inductive Escaped (q : Quote) (c : Char) : List Char → Prop
  | itself : c ≠ '\\' → c ≠ q.char → Escaped q c [c]
  | lettered {letter : Char} : lettered? letter = some c → Escaped q c ['\\', letter]
  | numbered {letter : Char} {width : Nat} : digitsBehind? letter = some width →
      c.toNat < 16 ^ width → Escaped q c ('\\' :: letter :: Hex.fixed Hex.lower width c.toNat)

/-- A letter stands for a character or says how many digits follow, but not both. -/
theorem lettered?_eq_none {letter : Char} {width : Nat} (h : digitsBehind? letter = some width) :
    lettered? letter = none := by
  unfold digitsBehind? at h
  split at h <;> first | rfl | cases h

theorem escaped_escape (q : Quote) (c : Char) : Escaped q c (escape q c) := by
  have valid : c.toNat < 0xD800 ∨ 0xDFFF < c.toNat ∧ c.toNat < 0x110000 := c.valid
  by_cases special : c = '\\' ∨ c = q.char
  · rw [escape, if_pos special]
    rcases special with rfl | rfl
    · exact .lettered rfl
    · cases q <;> exact .lettered rfl
  · rw [escape, if_neg special]
    rw [not_or] at special
    split
    · next tab => exact tab ▸ .lettered rfl
    split
    · next feed => exact feed ▸ .lettered rfl
    split
    · next back => exact back ▸ .lettered rfl
    split
    · exact .itself special.1 special.2
    split
    · next narrow => exact .numbered rfl narrow
    split
    · next middling => exact .numbered rfl middling
    · exact .numbered rfl (by omega)

/-- What stands for a character shows where it ends: by its first character if that is no backslash, and
otherwise by the letter behind it. -/
theorem Escaped.unique {q : Quote} {c d : Char} {cs ds r s : List Char} (left : Escaped q c cs)
    (right : Escaped q d ds) (same : cs ++ r = ds ++ s) : c = d ∧ r = s := by
  cases left with
  | itself plain _ =>
    cases right with
    | itself => simpa using same
    | lettered | numbered => simp [plain] at same
  | lettered named =>
    cases right with
    | itself plain _ => simp [plain.symm] at same
    | lettered named' =>
      simp only [List.cons_append, List.nil_append, List.cons.injEq, true_and] at same
      obtain ⟨rfl, behind⟩ := same
      exact ⟨Option.some.inj (named.symm.trans named'), behind⟩
    | numbered wide _ =>
      simp only [List.cons_append, List.cons.injEq, true_and] at same
      rw [same.1, lettered?_eq_none wide] at named
      cases named
  | numbered wide fits =>
    cases right with
    | itself plain _ => simp [plain.symm] at same
    | lettered named =>
      simp only [List.cons_append, List.cons.injEq, true_and] at same
      rw [← same.1, lettered?_eq_none wide] at named
      cases named
    | numbered wide' fits' =>
      simp only [List.cons_append, List.cons.injEq, true_and] at same
      obtain ⟨rfl, digits⟩ := same
      obtain rfl := Option.some.inj (wide.symm.trans wide')
      obtain ⟨number, behind⟩ := List.append_inj digits (by simp)
      exact ⟨Char.toNat_inj.1 (Hex.fixed_injective Hex.lower_injective fits fits' number), behind⟩

theorem selfDelimiting_escape (q : Quote) : SelfDelimiting (escape q) :=
  fun c d _ _ same => (escaped_escape q c).unique (escaped_escape q d) same

theorem Escaped.exists_head {q : Quote} {c : Char} {cs : List Char} (h : Escaped q c cs) :
    ∃ d ds, cs = d :: ds ∧ d ≠ q.char := by
  have backslash : '\\' ≠ q.char := by cases q <;> decide
  cases h with
  | itself _ inside => exact ⟨_, _, rfl, inside⟩
  | lettered | numbered => exact ⟨_, _, rfl, backslash⟩

/-- **A text between quotes shows where it ends**, whatever it holds. -/
theorem selfDelimiting_quote : SelfDelimiting quote := by
  intro cs ds r s same
  have body (q : Quote) : EndedBy q.char fun cs : List Char => cs.flatMap (escape q) :=
    (selfDelimiting_escape q).endedBy_flatMap fun c => (escaped_escape q c).exists_head
  simp only [quote, List.cons_append, List.append_assoc, List.nil_append, List.cons.injEq] at same
  obtain ⟨quotes, inside⟩ := same
  rw [Quote.char_injective quotes] at inside
  exact body (quoteFor ds) inside

theorem selfDelimiting_quoted : SelfDelimiting fun s : String => (quoted s).toList := by
  intro s t r r' same
  simp only [quoted, String.toList_ofList] at same
  obtain ⟨chars, behind⟩ := selfDelimiting_quote same
  exact ⟨String.toList_inj.1 chars, behind⟩

end Text

/-! ### Numerals -/

namespace Decimal

theorem toList_ofNat (n : Nat) : (ofNat n).toList = Nat.toDigits 10 n := String.toList_ofList

theorem toList_ofInt_negSucc (n : Nat) :
    (ofInt (.negSucc n)).toList = '-' :: Nat.toDigits 10 (n + 1) := by
  simp [ofInt, toList_ofNat]

theorem minus_or_isDigit_of_mem_ofInt {n : Int} {c : Char} (h : c ∈ (ofInt n).toList) :
    c = '-' ∨ c.isDigit = true := by
  cases n with
  | ofNat n =>
    rw [ofInt, toList_ofNat] at h
    exact .inr (Nat.isDigit_of_mem_toDigits (by decide) (by decide) h)
  | negSucc n =>
    rw [toList_ofInt_negSucc, List.mem_cons] at h
    exact h.imp_right (Nat.isDigit_of_mem_toDigits (by decide) (by decide))

/-- **The written form of a number is read as that number.** -/
theorem intValue_ofInt (n : Int) : intValue (ofInt n).toList = n := by
  cases n with
  | ofNat n =>
    rw [ofInt, toList_ofNat, intValue, value, Nat.ofDigitChars_ten_toDigits]
    · rfl
    · -- the first digit is no minus sign
      intro digits minus
      have first : '-' ∈ Nat.toDigits 10 n := minus ▸ List.mem_cons_self
      have digit := Nat.isDigit_of_mem_toDigits (by decide) (by decide) first
      exact absurd digit (by decide)
  | negSucc n =>
    rw [toList_ofInt_negSucc, intValue, value, Nat.ofDigitChars_ten_toDigits]
    rfl

theorem ofInt_injective : Function.Injective ofInt := by
  intro m n same
  rw [← intValue_ofInt m, same, intValue_ofInt]

theorem endedBy_ofInt (sign : stop ≠ '-') (digit : stop.isDigit = false) :
    EndedBy stop fun n : Int => (ofInt n).toList := by
  refine .of_not_mem (fun m n same => ofInt_injective (String.toList_inj.1 same)) fun n member => ?_
  rcases minus_or_isDigit_of_mem_ofInt member with minus | inside
  · exact sign minus
  · rw [digit] at inside
    cases inside

end Decimal

end Lexis

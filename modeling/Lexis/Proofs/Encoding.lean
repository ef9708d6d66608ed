import Lexis.Text.Utf8
import Mathlib.Algebra.Group.Nat.Defs

/-!
# Strict reading undoes encoding

A character beyond the first 128 is encoded as a first byte, which holds the upper bits of its number, and
a byte for each group of six bits below.

* `trail k n`: the bytes of the lowest `k` groups of the number `n`;
* `p.Allows n`: the sequence that lacks bytes can still become that of the number `n`;
* `p.Opens`: every number that the sequence allows is that of a character, whose encoding starts with the
  bytes of the sequence;
* `Decoded position bytes result`: the result is right for the bytes, the first of which is at `position`.

`decodeFrom_encode` says that encoded characters are read again, whatever stands behind them, and
`decoded_decodeFrom` that whatever is read was encoded. So a flaw is reported behind the longest beginning
that is well formed: `length_encode_le_of_error`.
-/

namespace Lexis.Text.Utf8

/-- The bytes of the characters. -/
def encode (cs : List Char) : List UInt8 := cs.flatMap String.utf8EncodeChar

theorem encode_cons (c : Char) (cs : List Char) :
    encode (c :: cs) = String.utf8EncodeChar c ++ encode cs := List.flatMap_cons

theorem encode_toList (source : String) : encode source.toList = source.toUTF8.data.toList := by
  conv => rhs; rw [← String.ofList_toList (s := source)]
  rw [String.toUTF8_eq_toByteArray, String.toByteArray_ofList, List.utf8Encode,
    List.toList_data_toByteArray]
  rfl

/-! ### Groups of six bits -/

/-- The bytes of the lowest `k` groups of six bits of a number, the highest group first. -/
def trail : Nat → Nat → List UInt8
  | 0, _ => []
  | k + 1, n => UInt8.ofNat (0x80 + n / 64 ^ k % 64) :: trail k n

theorem toNat_ofNat_lt {n : Nat} (h : n < 256) : (UInt8.ofNat n).toNat = n :=
  UInt8.toNat_ofNat_of_lt' h

theorem ofNat_eq {n : Nat} {b : UInt8} (h : n = b.toNat) : UInt8.ofNat n = b := by
  rw [h, UInt8.ofNat_toNat]

/-! ### The encoding of a character -/

section

variable {n : Nat}

theorem toNat_val_ofNat (valid : n.isValidChar) : (Char.ofNat n).val.toNat = n := by
  rw [Char.ofNat, dif_pos valid]
  rfl

theorem utf8EncodeChar_of_le_0x7F (h : n ≤ 0x7F) :
    String.utf8EncodeChar (Char.ofNat n) = [UInt8.ofNat n] := by
  have number := toNat_val_ofNat (n := n) (.inl (by omega))
  simp only [String.utf8EncodeChar, number, if_pos h]

theorem utf8EncodeChar_of_le_0x7FF (low : 0x80 ≤ n) (high : n ≤ 0x7FF) :
    String.utf8EncodeChar (Char.ofNat n) = UInt8.ofNat (0xC0 + n / 64) :: trail 1 n := by
  have number := toNat_val_ofNat (n := n) (.inl (by omega))
  have bits : n / 64 % 32 = n / 64 := Nat.mod_eq_of_lt (by omega)
  simp only [String.utf8EncodeChar, number, if_neg (show ¬ n ≤ 0x7F by omega), if_pos high, bits,
    trail, Nat.pow_zero, Nat.div_one, Nat.add_comm]

theorem utf8EncodeChar_of_le_0xFFFF (valid : n.isValidChar) (low : 0x800 ≤ n) (high : n ≤ 0xFFFF) :
    String.utf8EncodeChar (Char.ofNat n) = UInt8.ofNat (0xE0 + n / 4096) :: trail 2 n := by
  have number := toNat_val_ofNat valid
  have bits : n / 4096 % 16 = n / 4096 := Nat.mod_eq_of_lt (by omega)
  simp only [String.utf8EncodeChar, number, if_neg (show ¬ n ≤ 0x7F by omega),
    if_neg (show ¬ n ≤ 0x7FF by omega), if_pos high, bits, trail, Nat.pow_zero, Nat.pow_one,
    Nat.div_one, Nat.add_comm]

theorem utf8EncodeChar_of_le_0x10FFFF (low : 0x10000 ≤ n) (high : n ≤ 0x10FFFF) :
    String.utf8EncodeChar (Char.ofNat n) = UInt8.ofNat (0xF0 + n / 262144) :: trail 3 n := by
  have number := toNat_val_ofNat (n := n) (.inr ⟨by omega, by omega⟩)
  have bits : n / 262144 % 8 = n / 262144 := Nat.mod_eq_of_lt (by omega)
  simp only [String.utf8EncodeChar, number, if_neg (show ¬ n ≤ 0x7F by omega),
    if_neg (show ¬ n ≤ 0x7FF by omega), if_neg (show ¬ n ≤ 0xFFFF by omega), bits, trail,
    Nat.pow_zero, Nat.pow_one, Nat.div_one, Nat.add_comm, Nat.reducePow]

end

/-! ### Sequences that lack bytes -/

namespace Pending

/-- The bytes of the sequence, so far. -/
def bytes (p : Pending) : List UInt8 := p.first :: p.others

/-- The sequence can still become that of the number: the bits so far are those of the number, and its
next group is one that may come next. -/
def Allows (p : Pending) (n : Nat) : Prop :=
  p.valueWith p.low ≤ n / 64 ^ p.missing ∧ n / 64 ^ p.missing ≤ p.valueWith p.high

/-- Every number that the sequence allows is that of a character, whose encoding starts with it. -/
structure Opens (p : Pending) : Prop where
  low : 0x80 ≤ p.low.toNat
  ordered : p.low.toNat ≤ p.high.toNat
  high : p.high.toNat ≤ 0xBF
  short : p.others.length + p.missing ≤ 2
  encoded : ∀ n, p.Allows n → n.isValidChar ∧
    String.utf8EncodeChar (Char.ofNat n) = p.bytes ++ trail (p.missing + 1) n

variable {p : Pending} {b : UInt8}

/-- With one more byte the numbers are left whose next group is that of the byte. -/
theorem allows_extend_iff {missing n : Nat} :
    (p.extend b missing).Allows n ↔ n / 64 ^ (missing + 1) = p.valueWith b := by
  have groups : n / 64 ^ (missing + 1) = n / 64 ^ missing / 64 := by
    rw [Nat.pow_succ, Nat.div_div_eq_div_mul]
  rw [groups]
  show p.valueWith b * 0x40 + (0x80 - 0x80) ≤ n / 64 ^ missing ∧
      n / 64 ^ missing ≤ p.valueWith b * 0x40 + (0xBF - 0x80) ↔ _
  generalize n / 64 ^ missing = x
  omega

theorem valueWith_le_valueWith {a : UInt8} (h : a ≤ b) : p.valueWith a ≤ p.valueWith b := by
  have le : a.toNat ≤ b.toNat := UInt8.le_iff_toNat_le.1 h
  unfold valueWith
  omega

theorem allows_of_group (low : p.low ≤ b) (high : b ≤ p.high) {n : Nat}
    (group : n / 64 ^ p.missing = p.valueWith b) : p.Allows n := by
  rw [Allows, group]
  exact ⟨valueWith_le_valueWith low, valueWith_le_valueWith high⟩

namespace Opens

theorem mod_valueWith (h : p.Opens) (low : p.low ≤ b) (high : b ≤ p.high) :
    0x80 + p.valueWith b % 64 = b.toNat := by
  have least := h.low
  have greatest := h.high
  have low : p.low.toNat ≤ b.toNat := UInt8.le_iff_toNat_le.1 low
  have high : b.toNat ≤ p.high.toNat := UInt8.le_iff_toNat_le.1 high
  unfold valueWith
  omega

theorem exists_next (h : p.Opens) {n : Nat} (allowed : p.Allows n) :
    ∃ b, p.low ≤ b ∧ b ≤ p.high ∧ n / 64 ^ p.missing = p.valueWith b := by
  obtain ⟨least, greatest⟩ := allowed
  have low := h.low
  have ordered := h.ordered
  have high := h.high
  generalize n / 64 ^ p.missing = x at least greatest ⊢
  unfold valueWith at least greatest
  have number := toNat_ofNat_lt (show 0x80 + x % 64 < 256 by omega)
  refine ⟨UInt8.ofNat (0x80 + x % 64), ?_, ?_, ?_⟩
  · rw [UInt8.le_iff_toNat_le, number]
    omega
  · rw [UInt8.le_iff_toNat_le, number]
    omega
  · unfold valueWith
    omega

theorem trail_eq (h : p.Opens) (low : p.low ≤ b) (high : b ≤ p.high) {missing n : Nat}
    (group : n / 64 ^ missing = p.valueWith b) : trail (missing + 1) n = b :: trail missing n := by
  rw [trail, group, ofNat_eq (h.mod_valueWith low high)]

theorem extend (h : p.Opens) {missing : Nat} (lacks : p.missing = missing + 1) (low : p.low ≤ b)
    (high : b ≤ p.high) : (p.extend b missing).Opens where
  low := Nat.le_refl 0x80
  ordered := (by decide : 0x80 ≤ 0xBF)
  high := Nat.le_refl 0xBF
  short := by
    have short := h.short
    simp only [Pending.extend, List.length_append, List.length_singleton]
    omega
  encoded := by
    intro n allowed
    have group := allows_extend_iff.1 allowed
    obtain ⟨valid, encoded⟩ := h.encoded n (allows_of_group low high (by rwa [lacks]))
    refine ⟨valid, ?_⟩
    rw [encoded, lacks, h.trail_eq low high group]
    simp [bytes, Pending.extend]

theorem encode_last (h : p.Opens) (last : p.missing = 0) (low : p.low ≤ b) (high : b ≤ p.high) :
    String.utf8EncodeChar (Char.ofNat (p.valueWith b)) = p.bytes ++ [b] := by
  have group : p.valueWith b / 64 ^ 0 = p.valueWith b := Nat.div_one _
  obtain ⟨-, encoded⟩ := h.encoded (p.valueWith b) (allows_of_group low high (by rwa [last]))
  rw [encoded, last, h.trail_eq low high group, trail]

end Opens

/-! ### First bytes -/

theorem toNat_ite {a x y : UInt8} :
    (if b = a then x else y).toNat = if b.toNat = a.toNat then x.toNat else y.toNat := by
  simp only [apply_ite UInt8.toNat, ← UInt8.toNat_inj]

theorem ofLead_two (least : 0xC2 ≤ b.toNat) (greatest : b.toNat < 0xE0) :
    ofLead b = some ⟨b, [], b.toNat - 0xC0, 0, 0x80, 0xBF⟩ := by
  simp only [ofLead, UInt8.lt_iff_toNat_lt, UInt8.reduceToNat]
  rw [if_neg (by omega), if_pos greatest]

theorem ofLead_three (least : 0xE0 ≤ b.toNat) (greatest : b.toNat < 0xF0) :
    ∃ low high, ofLead b = some ⟨b, [], b.toNat - 0xE0, 1, low, high⟩ ∧
      low.toNat = (if b.toNat = 0xE0 then 0xA0 else 0x80) ∧
      high.toNat = if b.toNat = 0xED then 0x9F else 0xBF := by
  refine ⟨if b = 0xE0 then 0xA0 else 0x80, if b = 0xED then 0x9F else 0xBF, ?_, toNat_ite,
    toNat_ite⟩
  simp only [ofLead, UInt8.lt_iff_toNat_lt, UInt8.reduceToNat]
  rw [if_neg (by omega), if_neg (by omega), if_pos greatest]

theorem ofLead_four (least : 0xF0 ≤ b.toNat) (greatest : b.toNat < 0xF5) :
    ∃ low high, ofLead b = some ⟨b, [], b.toNat - 0xF0, 2, low, high⟩ ∧
      low.toNat = (if b.toNat = 0xF0 then 0x90 else 0x80) ∧
      high.toNat = if b.toNat = 0xF4 then 0x8F else 0xBF := by
  refine ⟨if b = 0xF0 then 0x90 else 0x80, if b = 0xF4 then 0x8F else 0xBF, ?_, toNat_ite,
    toNat_ite⟩
  simp only [ofLead, UInt8.lt_iff_toNat_lt, UInt8.reduceToNat]
  rw [if_neg (by omega), if_neg (by omega), if_neg (by omega), if_pos greatest]

theorem ofLead_eq_none (outside : b.toNat < 0xC2 ∨ 0xF5 ≤ b.toNat) : ofLead b = none := by
  simp only [ofLead, UInt8.lt_iff_toNat_lt, UInt8.reduceToNat]
  repeat' split
  all_goals first | rfl | omega

theorem opens_two (least : 0xC2 ≤ b.toNat) (greatest : b.toNat < 0xE0) :
    Opens ⟨b, [], b.toNat - 0xC0, 0, 0x80, 0xBF⟩ := by
  refine ⟨Nat.le_refl 0x80, (by decide : 0x80 ≤ 0xBF), Nat.le_refl 0xBF, Nat.zero_le 2, ?_⟩
  rintro n ⟨low, high⟩
  have low : (b.toNat - 0xC0) * 0x40 + (0x80 - 0x80) ≤ n / 64 ^ 0 := low
  have high : n / 64 ^ 0 ≤ (b.toNat - 0xC0) * 0x40 + (0xBF - 0x80) := high
  rw [Nat.pow_zero, Nat.div_one] at low high
  have first : UInt8.ofNat (0xC0 + n / 64) = b := ofNat_eq (by omega)
  refine ⟨.inl (by omega), ?_⟩
  rw [utf8EncodeChar_of_le_0x7FF (by omega) (by omega), first]
  rfl

/-- The second byte keeps the encoding from being too long and the number from being a surrogate. -/
theorem opens_three {low high : UInt8} (least : 0xE0 ≤ b.toNat) (greatest : b.toNat < 0xF0)
    (lows : low.toNat = if b.toNat = 0xE0 then 0xA0 else 0x80)
    (highs : high.toNat = if b.toNat = 0xED then 0x9F else 0xBF) :
    Opens ⟨b, [], b.toNat - 0xE0, 1, low, high⟩ := by
  have range : 0x80 ≤ low.toNat ∧ low.toNat ≤ high.toNat ∧ high.toNat ≤ 0xBF := by
    split at lows <;> split at highs <;> omega
  refine ⟨range.1, range.2.1, range.2.2, (by decide : 0 + 1 ≤ 2), ?_⟩
  rintro n ⟨least', greatest'⟩
  have least' : (b.toNat - 0xE0) * 0x40 + (low.toNat - 0x80) ≤ n / 64 := least'
  have greatest' : n / 64 ≤ (b.toNat - 0xE0) * 0x40 + (high.toNat - 0x80) := greatest'
  have first : UInt8.ofNat (0xE0 + n / 4096) = b := ofNat_eq (by omega)
  have long : 0x800 ≤ n := by
    split at lows <;> omega
  have valid : n.isValidChar := by
    rcases Nat.lt_or_ge 0xED b.toNat with above | below
    · exact .inr ⟨by omega, by omega⟩
    · refine .inl ?_
      split at highs <;> omega
  refine ⟨valid, ?_⟩
  rw [utf8EncodeChar_of_le_0xFFFF valid long (by omega), first]
  rfl

/-- The second byte keeps the encoding from being too long and the number from being too large. -/
theorem opens_four {low high : UInt8} (least : 0xF0 ≤ b.toNat) (greatest : b.toNat < 0xF5)
    (lows : low.toNat = if b.toNat = 0xF0 then 0x90 else 0x80)
    (highs : high.toNat = if b.toNat = 0xF4 then 0x8F else 0xBF) :
    Opens ⟨b, [], b.toNat - 0xF0, 2, low, high⟩ := by
  have range : 0x80 ≤ low.toNat ∧ low.toNat ≤ high.toNat ∧ high.toNat ≤ 0xBF := by
    split at lows <;> split at highs <;> omega
  refine ⟨range.1, range.2.1, range.2.2, (by decide : 0 + 2 ≤ 2), ?_⟩
  rintro n ⟨least', greatest'⟩
  have least' : (b.toNat - 0xF0) * 0x40 + (low.toNat - 0x80) ≤ n / 4096 := least'
  have greatest' : n / 4096 ≤ (b.toNat - 0xF0) * 0x40 + (high.toNat - 0x80) := greatest'
  have first : UInt8.ofNat (0xF0 + n / 262144) = b := ofNat_eq (by omega)
  have long : 0x10000 ≤ n := by
    split at lows <;> omega
  have last : n ≤ 0x10FFFF := by
    split at highs <;> omega
  refine ⟨.inr ⟨by omega, by omega⟩, ?_⟩
  rw [utf8EncodeChar_of_le_0x10FFFF long last, first]
  rfl

theorem opens_ofLead (h : ofLead b = some p) : p.Opens ∧ p.bytes = [b] := by
  rcases Nat.lt_or_ge b.toNat 0xC2 with below | two
  · rw [ofLead_eq_none (.inl below)] at h
    cases h
  rcases Nat.lt_or_ge b.toNat 0xE0 with below | three
  · rw [ofLead_two two below] at h
    cases h
    exact ⟨opens_two two below, rfl⟩
  rcases Nat.lt_or_ge b.toNat 0xF0 with below | four
  · obtain ⟨low, high, lead, lows, highs⟩ := ofLead_three three below
    rw [lead] at h
    cases h
    exact ⟨opens_three three below lows highs, rfl⟩
  rcases Nat.lt_or_ge b.toNat 0xF5 with below | above
  · obtain ⟨low, high, lead, lows, highs⟩ := ofLead_four four below
    rw [lead] at h
    cases h
    exact ⟨opens_four four below lows highs, rfl⟩
  · rw [ofLead_eq_none (.inr above)] at h
    cases h

theorem exists_lead (c : Char) (h : 0x80 ≤ c.toNat) :
    ∃ b p, 0x80 ≤ b.toNat ∧ ofLead b = some p ∧ p.Allows c.toNat := by
  have valid : c.toNat < 0xD800 ∨ 0xDFFF < c.toNat ∧ c.toNat < 0x110000 := c.valid
  generalize c.toNat = n at h valid
  rcases Nat.lt_or_ge n 0x800 with two | more
  · have number := toNat_ofNat_lt (show 0xC0 + n / 64 < 256 by omega)
    generalize UInt8.ofNat (0xC0 + n / 64) = b at number
    refine ⟨b, _, by omega, ofLead_two (by omega) (by omega), ?_⟩
    show (b.toNat - 0xC0) * 0x40 + (0x80 - 0x80) ≤ n / 64 ^ 0 ∧
      n / 64 ^ 0 ≤ (b.toNat - 0xC0) * 0x40 + (0xBF - 0x80)
    omega
  rcases Nat.lt_or_ge n 0x10000 with three | four
  · have number := toNat_ofNat_lt (show 0xE0 + n / 4096 < 256 by omega)
    generalize UInt8.ofNat (0xE0 + n / 4096) = b at number
    obtain ⟨low, high, lead, lows, highs⟩ := ofLead_three (b := b) (by omega) (by omega)
    refine ⟨b, _, by omega, lead, ?_⟩
    show (b.toNat - 0xE0) * 0x40 + (low.toNat - 0x80) ≤ n / 64 ∧
      n / 64 ≤ (b.toNat - 0xE0) * 0x40 + (high.toNat - 0x80)
    split at lows <;> split at highs <;> omega
  · have number := toNat_ofNat_lt (show 0xF0 + n / 262144 < 256 by omega)
    generalize UInt8.ofNat (0xF0 + n / 262144) = b at number
    obtain ⟨low, high, lead, lows, highs⟩ := ofLead_four (b := b) (by omega) (by omega)
    refine ⟨b, _, by omega, lead, ?_⟩
    show (b.toNat - 0xF0) * 0x40 + (low.toNat - 0x80) ≤ n / 4096 ∧
      n / 4096 ≤ (b.toNat - 0xF0) * 0x40 + (high.toNat - 0x80)
    split at lows <;> split at highs <;> omega

end Pending

/-! ### Characters are read as they were encoded -/

section

variable {p : Pending} {b : UInt8} {c : Char} {position : Nat} {bytes : List UInt8}

theorem decodeFrom_last (last : p.missing = 0) (low : p.low ≤ b) (high : b ≤ p.high) :
    decodeFrom position (some p) (b :: bytes) =
      (decodeFrom (position + p.others.length + 2) none bytes).map
        (Char.ofNat (p.valueWith b) :: ·) := by
  simp only [decodeFrom, low, high, and_self, if_true, last]

theorem decodeFrom_more {missing : Nat} (lacks : p.missing = missing + 1) (low : p.low ≤ b)
    (high : b ≤ p.high) :
    decodeFrom position (some p) (b :: bytes) =
      decodeFrom position (some (p.extend b missing)) bytes := by
  simp only [decodeFrom, low, high, and_self, if_true, lacks]

theorem decodeFrom_lead (high : 0x80 ≤ b.toNat) (lead : Pending.ofLead b = some p) :
    decodeFrom position none (b :: bytes) = decodeFrom position (some p) bytes := by
  have noAscii : ¬ b < 0x80 := fun low => Nat.not_lt.2 high (UInt8.lt_iff_toNat_lt.1 low)
  simp only [decodeFrom, noAscii, if_false, lead]

theorem decodeFrom_trail {n : Nat} (h : p.Opens) (allowed : p.Allows n) (position : Nat)
    (bytes : List UInt8) :
    decodeFrom position (some p) (trail (p.missing + 1) n ++ bytes) =
      (decodeFrom (position + (p.bytes.length + (p.missing + 1))) none bytes).map
        (Char.ofNat n :: ·) := by
  -- on the bytes still lacking: each that comes leaves the sequence open for the same number
  induction lacks : p.missing generalizing p with
  | zero =>
    obtain ⟨b, low, high, group⟩ := h.exists_next allowed
    rw [lacks] at group
    rw [h.trail_eq low high group, List.cons_append, decodeFrom_last lacks low high, ← group,
      Nat.pow_zero, Nat.div_one]
    rfl
  | succ missing ih =>
    obtain ⟨b, low, high, group⟩ := h.exists_next allowed
    rw [lacks] at group
    have read := ih (h.extend lacks low high) (Pending.allows_extend_iff.2 group) rfl
    have length : (p.extend b missing).bytes.length = p.bytes.length + 1 := by
      simp [Pending.bytes, Pending.extend]
    rw [h.trail_eq low high group, List.cons_append, decodeFrom_more lacks low high, read, length,
      Nat.add_right_comm, Nat.add_assoc p.bytes.length]

theorem length_trail (k n : Nat) : (trail k n).length = k := by
  induction k with
  | zero => rfl
  | succ k ih => rw [trail, List.length_cons, ih]

theorem decodeFrom_encodeChar (c : Char) (position : Nat) (bytes : List UInt8) :
    decodeFrom position none (String.utf8EncodeChar c ++ bytes) =
      (decodeFrom (position + (String.utf8EncodeChar c).length) none bytes).map (c :: ·) := by
  rcases Nat.lt_or_ge c.toNat 0x80 with ascii | beyond
  · have encoded := utf8EncodeChar_of_le_0x7F (n := c.toNat) (by omega)
    have number := toNat_ofNat_lt (show c.toNat < 256 by omega)
    have low : UInt8.ofNat c.toNat < 0x80 := UInt8.lt_iff_toNat_lt.2 (by rw [number]; exact ascii)
    rw [Char.ofNat_toNat] at encoded
    rw [encoded]
    simp only [List.singleton_append, decodeFrom, low, if_true, number, Char.ofNat_toNat,
      List.length_singleton]
  · obtain ⟨b, p, high, lead, allowed⟩ := Pending.exists_lead c beyond
    obtain ⟨opens, first⟩ := Pending.opens_ofLead lead
    obtain ⟨-, encoded⟩ := opens.encoded c.toNat allowed
    rw [Char.ofNat_toNat, first] at encoded
    have read := decodeFrom_trail opens allowed position bytes
    rw [first, Char.ofNat_toNat] at read
    rw [encoded, List.append_assoc, List.singleton_append, decodeFrom_lead high lead, read,
      List.length_append, length_trail]

/-- **Encoded characters are read**, whatever stands behind them. -/
theorem decodeFrom_encode (cs : List Char) (position : Nat) (bytes : List UInt8) :
    decodeFrom position none (encode cs ++ bytes) =
      (decodeFrom (position + (encode cs).length) none bytes).map (cs ++ ·) := by
  induction cs generalizing position with
  | nil =>
    show decodeFrom position none bytes = (decodeFrom position none bytes).map id
    cases decodeFrom position none bytes <;> rfl
  | cons c cs ih =>
    rw [encode_cons, List.append_assoc, decodeFrom_encodeChar, ih, List.length_append,
      Nat.add_assoc]
    cases decodeFrom _ none bytes <;> rfl

theorem decode_encode (cs : List Char) : decode (encode cs) = .ok cs := by
  have read := decodeFrom_encode cs 0 []
  rw [List.append_nil] at read
  rw [decode, read, decodeFrom]
  show Except.ok (cs ++ []) = _
  rw [List.append_nil]

end

/-! ### What is read was encoded -/

/-- The bytes that a report is about. -/
def Malformed.bytes (m : Malformed) : List UInt8 := m.first :: m.others

/-- **What is read of bytes**, the first of which is at the position: the characters that they encode, or
the flaw behind the characters that the first of them encode. -/
inductive Decoded (position : Nat) (bytes : List UInt8) : Except Malformed (List Char) → Prop
  | text (cs) : encode cs = bytes → Decoded position bytes (.ok cs)
  | flaw (cs m rest) : encode cs ++ (m.bytes ++ rest) = bytes →
      m.position = position + (encode cs).length → m.others.length ≤ 2 →
      Decoded position bytes (.error m)

theorem Decoded.cons {c : Char} {position : Nat} {bytes : List UInt8}
    {result : Except Malformed (List Char)}
    (h : Decoded (position + (String.utf8EncodeChar c).length) bytes result) :
    Decoded position (String.utf8EncodeChar c ++ bytes) (result.map (c :: ·)) := by
  cases h with
  | text cs whole => exact .text (c :: cs) (by rw [encode_cons, whole])
  | flaw cs m rest whole place short =>
    refine .flaw (c :: cs) m rest ?_ ?_ short
    · rw [encode_cons, List.append_assoc, whole]
    · rw [place, encode_cons, List.length_append, Nat.add_assoc]

/-- The bytes of the sequence that lacks bytes, if there is one. -/
def begun : Option Pending → List UInt8
  | none => []
  | some p => p.bytes

theorem Decoded.here {position : Nat} {bytes : List UInt8} {m : Malformed} (rest : List UInt8)
    (starts : m.bytes ++ rest = bytes) (place : m.position = position) (short : m.others.length ≤ 2) :
    Decoded position bytes (.error m) := .flaw [] m rest starts place short

/-- **What is read was encoded**, and a flaw is reported behind what was. -/
theorem decoded_decodeFrom (position : Nat) (state : Option Pending) (bytes : List UInt8)
    (opens : ∀ p ∈ state, p.Opens) :
    Decoded position (begun state ++ bytes) (decodeFrom position state bytes) := by
  -- the bytes of a sequence that has begun count as not yet read, until its last byte has come
  fun_induction decodeFrom position state bytes with
  | case1 position => exact .text [] rfl
  | case2 position p =>
    have short := (opens p rfl).short
    exact .here [] rfl rfl (Nat.le_trans (Nat.le_add_right _ _) short)
  | case3 position b bytes ascii ih =>
    have low : b.toNat ≤ 0x7F := Nat.le_of_lt_succ (UInt8.lt_iff_toNat_lt.1 ascii)
    have encoded := utf8EncodeChar_of_le_0x7F low
    rw [UInt8.ofNat_toNat] at encoded
    have read : Decoded position (String.utf8EncodeChar (Char.ofNat b.toNat) ++ bytes) _ :=
      .cons (by rw [encoded]; exact ih nofun)
    rwa [encoded] at read
  | case4 position b bytes beyond noLead => exact .here bytes rfl rfl (Nat.zero_le 2)
  | case5 position b bytes beyond p lead ih =>
    obtain ⟨opened, first⟩ := Pending.opens_ofLead lead
    have read := ih fun q same => Option.some.inj same ▸ opened
    rwa [begun, first] at read
  | case6 position p b bytes within last ih =>
    have encoded := (opens p rfl).encode_last last within.1 within.2
    have length : (String.utf8EncodeChar (Char.ofNat (p.valueWith b))).length =
        p.others.length + 2 := by
      rw [encoded]
      simp [Pending.bytes]
    have read : Decoded position (String.utf8EncodeChar (Char.ofNat (p.valueWith b)) ++ bytes) _ :=
      .cons (by rw [length]; exact ih nofun)
    rwa [encoded, List.append_assoc] at read
  | case7 position p b bytes within missing lacks ih =>
    have opened := (opens p rfl).extend lacks within.1 within.2
    have read := ih fun q same => Option.some.inj same ▸ opened
    have more : begun (some (p.extend b missing)) = begun (some p) ++ [b] := rfl
    rwa [more, List.append_assoc] at read
  | case8 position p b bytes outside =>
    have short := (opens p rfl).short
    exact .here (b :: bytes) rfl rfl (Nat.le_trans (Nat.le_add_right _ _) short)

theorem decoded_decode (bytes : List UInt8) : Decoded 0 bytes (decode bytes) :=
  decoded_decodeFrom 0 none bytes nofun

/-- **Bytes are read** just if they encode characters. -/
theorem decode_eq_ok_iff {bytes : List UInt8} {cs : List Char} :
    decode bytes = .ok cs ↔ encode cs = bytes := by
  constructor
  · intro read
    have decoded := decoded_decode bytes
    rw [read] at decoded
    cases decoded with
    | text _ whole => exact whole
  · rintro rfl
    exact decode_encode cs

/-- **No longer beginning is well formed** than the one before the reported flaw. -/
theorem length_encode_le_of_error {bytes rest : List UInt8} {cs : List Char} {m : Malformed}
    (failed : decode bytes = .error m) (starts : encode cs ++ rest = bytes) :
    (encode cs).length ≤ m.position := by
  have decoded := decoded_decodeFrom (0 + (encode cs).length) none rest nofun
  rw [← starts, decode, decodeFrom_encode] at failed
  cases read : decodeFrom (0 + (encode cs).length) none rest with
  | ok ds =>
    rw [read] at failed
    cases failed
  | error flaw =>
    rw [read] at failed decoded
    obtain rfl : flaw = m := Except.error.inj failed
    cases decoded with
    | flaw ds _ behind _ place _ => omega

end Lexis.Text.Utf8

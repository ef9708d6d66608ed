import Lexis.Position
import Mathlib.Data.List.Induction

/-!
# Places by counting

* `lineRest before`: how many characters of `before` stand behind its last line feed;
* `Location.behind file before`: the place behind `before`, by counting over all of it at once;
* `p.Counted source`: the position is that of an offset of the source, with line and column counted right;
* `feeds cs`: where the line feeds of a text stand, all that counts for places;
* `IsLineStart source p k`: the line of the offset `p` starts at the offset `k`;
* `Location.Exact source file location`: the location is the place of an offset of the source.

`locate_after` says that walking over characters one by one comes to the counted place, and
`exact_behind` that the counted place is exact.
-/

namespace Lexis

/-! ### Counting -/

def lineRest (before : List Char) : Nat := (before.reverse.takeWhile (· ≠ '\n')).length

/-- The place behind a text: the line feeds in it, and what stands behind the last of them. -/
def Location.behind (file : String) (before : List Char) : Location :=
  ⟨file, before.count '\n' + 1, lineRest before + 1, before.length⟩

theorem lineRest_concat (before : List Char) (c : Char) :
    lineRest (before ++ [c]) = if c = '\n' then 0 else lineRest before + 1 := by
  unfold lineRest
  rw [List.reverse_concat]
  split
  · next newline => rw [List.takeWhile_cons_of_neg (by simpa using newline)]; rfl
  · next other => rw [List.takeWhile_cons_of_pos (by simpa using other)]; rfl

theorem Position.after_start (before : List Char) :
    Position.start.after before = ⟨before.length, before.count '\n' + 1, lineRest before⟩ := by
  induction before using List.reverseRecOn with
  | nil => rfl
  | append_singleton before c ih =>
    rw [after_append, ih, after_cons, after_nil, next, lineRest_concat]
    by_cases newline : c = '\n'
    · simp [newline]
    · simp [newline]

theorem Position.locate_after (file : String) (before : List Char) :
    (Position.start.after before).locate file = .behind file before := by
  rw [after_start]
  rfl

/-! ### Line feeds -/

/-- Which characters of a text are line feeds. -/
def feeds (cs : List Char) : List Bool := cs.map fun c => decide (c = '\n')

theorem feeds_append (cs ds : List Char) : feeds (cs ++ ds) = feeds cs ++ feeds ds :=
  List.map_append

theorem length_eq_of_feeds {cs ds : List Char} (h : feeds cs = feeds ds) :
    cs.length = ds.length := by
  have lengths := congrArg List.length h
  rwa [feeds, feeds, List.length_map, List.length_map] at lengths

/-- Only the line feeds of a text count for the place behind it. -/
theorem Position.after_congr {cs ds : List Char} (h : feeds cs = feeds ds) (p : Position) :
    p.after cs = p.after ds := by
  induction cs generalizing p ds with
  | nil =>
    have empty : ds = [] := List.map_eq_nil_iff.1 h.symm
    rw [empty]
  | cons c cs ih =>
    cases ds with
    | nil => cases h
    | cons d ds =>
      obtain ⟨first, rest⟩ := List.cons.inj h
      have next : p.next c = p.next d := by
        simp only [Position.next, decide_eq_decide.1 first]
      rw [after_cons, after_cons, next, ih rest]

theorem Location.behind_congr {cs ds : List Char} (h : feeds cs = feeds ds) (file : String) :
    behind file cs = behind file ds := by
  rw [← Position.locate_after, ← Position.locate_after, Position.after_congr h]

/-! ### Counted positions -/

/-- **The position is that of an offset of the source**: its line is one more than the line feeds before
the offset, and its column what stands behind the last of them. -/
structure Position.Counted (source : List Char) (p : Position) : Prop where
  within : p.offset ≤ source.length
  line : p.line = 1 + (source.take p.offset).count '\n'
  column : p.column = lineRest (source.take p.offset)

theorem Position.counted_after (before rest : List Char) :
    (start.after before).Counted (before ++ rest) := by
  rw [after_start]
  refine ⟨?_, ?_, ?_⟩
  · simp only [List.length_append, Nat.le_add_right]
  · simp only [List.take_left, Nat.add_comm]
  · simp only [List.take_left]

theorem Position.Counted.eq_after {source : List Char} {p : Position} (h : p.Counted source) :
    p = start.after (source.take p.offset) := by
  have length : (source.take p.offset).length = p.offset := List.length_take_of_le h.within
  rw [after_start, length, Nat.add_comm _ 1, ← h.line, ← h.column]

theorem Position.Counted.next {source : List Char} {p : Position} {c : Char} (h : p.Counted source)
    (found : source[p.offset]? = some c) : (p.next c).Counted source := by
  obtain ⟨within, rfl⟩ := List.getElem?_eq_some_iff.1 found
  have stepped : p.next source[p.offset] = start.after (source.take (p.offset + 1)) := by
    rw [List.take_succ_eq_append_getElem within, after_append, ← h.eq_after]
    rfl
  have counted := counted_after (source.take (p.offset + 1)) (source.drop (p.offset + 1))
  rwa [List.take_append_drop, ← stepped] at counted

/-! ### Lines -/

/-- The line of the offset `p` starts at the offset `k`: behind the last line feed before `p`, or at
the start if there is none. -/
structure IsLineStart (source : List Char) (p k : Nat) : Prop where
  le : k ≤ p
  opens : k = 0 ∨ source[k - 1]? = some '\n'
  unbroken : ∀ i, k ≤ i → i < p → source[i]? ≠ some '\n'

theorem IsLineStart.unique {source : List Char} {p k l : Nat} (hk : IsLineStart source p k)
    (hl : IsLineStart source p l) : k = l := by
  -- a later start would have its line feed inside the line of the earlier one
  have apart : ∀ {a b : Nat}, IsLineStart source p a → IsLineStart source p b → ¬ a < b := by
    intro a b ha hb less
    rcases hb.opens with zero | feed
    · omega
    · exact ha.unbroken (b - 1) (by omega) (by have := hb.le; omega) feed
  have := apart hk hl
  have := apart hl hk
  omega

/-- A text ends in its last line, and the line feed of the line before stands in front of it. -/
theorem exists_lastLine (before : List Char) :
    ∃ lines line, before = lines ++ line ∧ '\n' ∉ line ∧ line.length = lineRest before ∧
      (lines = [] ∨ ∃ front, lines = front ++ ['\n']) := by
  induction before using List.reverseRecOn with
  | nil => exact ⟨[], [], rfl, List.not_mem_nil, rfl, .inl rfl⟩
  | append_singleton before c ih =>
    obtain ⟨lines, line, whole, plain, length, ends⟩ := ih
    rw [lineRest_concat]
    by_cases newline : c = '\n'
    · subst newline
      exact ⟨before ++ ['\n'], [], by simp, List.not_mem_nil, rfl, .inr ⟨before, rfl⟩⟩
    · refine ⟨lines, line ++ [c], by rw [whole, List.append_assoc], ?_, ?_, ends⟩
      · simp only [List.mem_append, List.mem_singleton, not_or]
        exact ⟨plain, fun h => newline h.symm⟩
      · rw [List.length_append, length, if_neg newline]
        rfl

theorem isLineStart_behind (before rest : List Char) :
    lineRest before ≤ before.length ∧
      IsLineStart (before ++ rest) before.length (before.length - lineRest before) := by
  obtain ⟨lines, line, rfl, plain, length, ends⟩ := exists_lastLine before
  rw [← length, List.length_append, Nat.add_sub_cancel]
  refine ⟨Nat.le_add_left _ _, Nat.le_add_right _ _, ?_, ?_⟩
  · rcases ends with rfl | ⟨front, rfl⟩
    · exact .inl rfl
    · right
      simp
  · intro i low high
    rw [List.append_assoc, List.getElem?_append_right low,
      List.getElem?_append_left (by omega)]
    intro found
    exact plain (List.mem_of_getElem? found)

/-! ### Exact locations -/

/-- **The location is that of an offset of the source**: its line is one more than the line feeds
before the offset, and its column one more than the characters since the start of the line. -/
def Location.Exact (source : List Char) (file : String) (location : Location) : Prop :=
  ∃ p k : Nat, p ≤ source.length ∧ IsLineStart source p k ∧
    location = ⟨file, 1 + ((source.take p).count '\n' : Nat), (p : Int) - k + 1, p⟩

theorem Location.exact_behind (file : String) (before rest : List Char) :
    (behind file before).Exact (before ++ rest) file := by
  obtain ⟨le, lineStart⟩ := isLineStart_behind before rest
  refine ⟨before.length, before.length - lineRest before, by simp, lineStart, ?_⟩
  have column : (lineRest before : Int) = before.length - (before.length - lineRest before : Nat) := by
    omega
  rw [List.take_left, behind, column]
  simp only [Int.add_comm]

end Lexis

import Lexis.Config.Settings

/-!
# The words of a refusal

* `value.integers`: the integers that are shown with a value, those of its parts included;
* `Decimal.Short n`: the number is short enough to be written;
* `Decimal.Limited integers result`: the result is one if all of the integers are short enough, and
  otherwise the refusal of a number;
* `violation.Told error`: the error is what a check says of what it has found.

A check has words for what it has found just if the integers in them are short enough
(`Violation.limited_text`), since a value is shown part by part; `told_iff` puts that in terms of the error.
-/

namespace Lexis

namespace Decimal

/-- The number is short enough to be written. -/
def Short (n : Int) : Prop := n.natAbs < Nat.pow 10 maxDigits

/-- **The integers limit the result**: there is none if one of them is too long to be written. -/
inductive Limited {α : Type} (integers : List Int) : Except TooLong α → Prop
  | ok {a} : (∀ n ∈ integers, Short n) → Limited integers (.ok a)
  | error : (∃ n ∈ integers, ¬ Short n) → Limited integers (.error .number)

namespace Limited

variable {α β : Type} {integers others : List Int} {result : Except TooLong α}

theorem nil (a : α) : Limited [] (.ok a : Except TooLong α) := .ok (by simp)

theorem writeInt (n : Int) : Limited [n] (writeInt n) := by
  unfold Decimal.writeInt
  split
  · next short => exact .ok (List.forall_mem_singleton.2 short)
  · next long => exact .error ⟨n, List.mem_singleton_self n, long⟩

theorem bind {f : α → Except TooLong β} (h : Limited integers result)
    (h' : ∀ a, Limited others (f a)) : Limited (integers ++ others) (result >>= f) := by
  cases h with
  | @ok a short =>
    have later := h' a
    show Limited _ (f a)
    generalize f a = outcome at later ⊢
    cases later with
    | ok others => exact .ok (List.forall_mem_append.2 ⟨short, others⟩)
    | error long =>
      obtain ⟨n, member, long⟩ := long
      exact .error ⟨n, List.mem_append_right _ member, long⟩
  | error long =>
    obtain ⟨n, member, long⟩ := long
    exact .error ⟨n, List.mem_append_left _ member, long⟩

theorem map (f : α → β) (h : Limited integers result) :
    Limited integers (result >>= fun a => .ok (f a)) := by
  have mapped := h.bind fun a => nil (f a)
  rwa [List.append_nil] at mapped

theorem eq_error (h : Limited integers result) (long : ∃ n ∈ integers, ¬ Short n) :
    result = .error .number := by
  cases h with
  | ok short =>
    obtain ⟨n, member, long⟩ := long
    exact absurd (short n member) long
  | error _ => rfl

end Limited

end Decimal

open Decimal

/-! ### Values -/

/-- The integers that are shown with a scalar. -/
def Scalar.integers : Scalar → List Int
  | integer n => [n]
  | _ => []

theorem Scalar.limited_shown (value : Scalar) : Limited value.integers value.shown := by
  cases value with
  | integer n => exact .writeInt n
  | boolean b => cases b <;> exact .nil _
  | _ => exact .nil _

namespace Value

mutual

/-- The integers that are shown with a value. -/
def integers : Value → List Int
  | scalar value => value.integers
  | list items => integersItems items
  | record fields => integersFields fields

def integersItems : List Value → List Int
  | [] => []
  | item :: items => item.integers ++ integersItems items

def integersFields : List (String × Value) → List Int
  | [] => []
  | (_, value) :: fields => value.integers ++ integersFields fields

end

mutual

/-- **A value is shown just if its integers are short enough**, however deep they are inside of it. -/
theorem limited_shown : ∀ value : Value, Limited value.integers value.shown
  | scalar value => value.limited_shown
  | list items => (limited_shownItems items).map _
  | record fields => (limited_shownFields fields).map _

theorem limited_shownItems : ∀ items, Limited (integersItems items) (shownItems items)
  | [] => .nil _
  | item :: items => (limited_shown item).bind fun _ => (limited_shownItems items).map _

theorem limited_shownFields : ∀ fields, Limited (integersFields fields) (shownFields fields)
  | [] => .nil _
  | (_, value) :: fields => (limited_shown value).bind fun _ => (limited_shownFields fields).map _

end

end Value

/-! ### Violations -/

namespace Settings.Violation

/-- The integers in the words for a violation. -/
def integers : Violation → List Int
  | bitsNotInteger _ => []
  | bitsTooSmall bits => [bits]
  | notKind spelling value => spelling.integers ++ value.integers
  | notKeyword spelling _ | notWord spelling => spelling.integers

theorem limited_text (violation : Violation) : Limited violation.integers violation.text := by
  cases violation with
  | bitsNotInteger bits => exact .nil _
  | bitsTooSmall bits => exact (Limited.writeInt bits).map _
  | notKind spelling value =>
    exact spelling.limited_shown.bind fun _ => value.limited_shown.map _
  | notKeyword spelling kind => exact spelling.limited_shown.map _
  | notWord spelling => exact spelling.limited_shown.map _

/-- **The error is what the check says of the violation**: its words where all integers in them are short
enough to be written, and otherwise that one is too long. -/
inductive Told (violation : Violation) : ConfigError → Prop
  | words {text} : (∀ n ∈ violation.integers, Short n) → violation.text = .ok text →
      Told violation (.violation violation text)
  | tooLong : (∃ n ∈ violation.integers, ¬ Short n) → Told violation (.tooLong .number)

theorem told_iff {violation : Violation} {error : ConfigError} :
    violation.Told error ↔ violation.error = error := by
  have limited := violation.limited_text
  unfold Violation.error
  constructor
  · rintro (⟨-, text⟩ | long)
    · rw [text]
    · rw [limited.eq_error long]
  · rintro rfl
    cases result : violation.text with
    | ok text =>
      rw [result] at limited
      cases limited with
      | ok short => exact .words short result
    | error reason =>
      rw [result] at limited
      cases limited with
      | error long => exact .tooLong long

end Settings.Violation

end Lexis

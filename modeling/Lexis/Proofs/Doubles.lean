import Lexis.Double

/-!
# The digits of a double

* `x.distance n`: how far the decimal is from the number;
* `x.Shortest digits zeros`: the digits with that many zeros behind them are read as the number, nothing with
  fewer digits is, and nothing with as many zeros that is read as the number is nearer to it.

`shortest_digits` says so of the digits by which a number other than zero is shown. Multiples of a power of
ten that lie between the number and one that is read as it are read as it, too, so only the two next to the
number have to be looked at.
-/

namespace Lexis.Magnitude

/-- How far the decimal is from the number. -/
def distance (x : Magnitude) (n : Nat) : Nat := (n - x.units) + (x.units - n)

/-- **The nearest decimal of the fewest digits that is read as the number.** -/
structure Shortest (x : Magnitude) (digits zeros : Nat) : Prop where
  reads : x.Reads (digits * Nat.pow 10 zeros)
  /-- What has fewer digits has more zeros. -/
  fewest : ∀ n places, zeros < places → ¬ x.Reads (n * Nat.pow 10 places)
  nearest : ∀ n, x.Reads (n * Nat.pow 10 zeros) →
    x.distance (digits * Nat.pow 10 zeros) ≤ x.distance (n * Nat.pow 10 zeros)

variable {x : Magnitude}

/-! ### What is read as the number -/

theorem quarter_pos : 0 < x.quarter := by
  have positive : 0 < Nat.pow 5 1076 := by decide +kernel
  unfold quarter
  -- the number itself is of no use, and too long to be computed in every step
  generalize Nat.pow 5 1076 = unit at positive ⊢
  exact Nat.mul_pos positive (Nat.pow_pos (by decide))

theorem units_lt_upper : x.units < x.upper :=
  Nat.mul_lt_mul_of_pos_right (by omega) quarter_pos

section

variable (positive : 0 < x.significand)
include positive

theorem lower_lt_units : x.lower < x.units := by
  refine Nat.mul_lt_mul_of_pos_right ?_ quarter_pos
  split <;> omega

theorem lower_pos : 0 < x.lower := by
  refine Nat.mul_pos ?_ quarter_pos
  split <;> omega

theorem upper_le : x.upper ≤ 2 * x.units := by
  unfold upper units
  rw [← Nat.mul_assoc]
  refine Nat.mul_le_mul_right _ ?_
  omega

theorem reads_units : x.Reads x.units := .inl ⟨lower_lt_units positive, units_lt_upper⟩

/-- What is nearer to the number on the same side is read as it, too. -/
theorem Reads.of_between {m n : Nat} (h : x.Reads n)
    (between : n ≤ m ∧ m ≤ x.units ∨ x.units ≤ m ∧ m ≤ n) : x.Reads m := by
  have low := lower_lt_units positive
  have high : x.units < x.upper := units_lt_upper
  unfold Reads at h ⊢
  omega

theorem not_reads_of_length_le {places : Nat} (wide : (Nat.toDigits 10 x.units).length ≤ places)
    (n : Nat) : ¬ x.Reads (n * Nat.pow 10 (places + 1)) := by
  have least := lower_pos positive
  have low := lower_lt_units positive
  have high : x.units < x.upper := units_lt_upper
  have most := upper_le positive
  have digits : 0 < (Nat.toDigits 10 x.units).length := List.length_pos_iff.2 Nat.toDigits_ne_nil
  have short : x.units < Nat.pow 10 places :=
    (Nat.length_toDigits_le_iff (by decide) (Nat.lt_of_lt_of_le digits wide)).1 wide
  have step : Nat.pow 10 (places + 1) = Nat.pow 10 places * 10 := rfl
  unfold Reads
  cases n with
  | zero =>
    rw [Nat.zero_mul]
    omega
  | succ n =>
    rw [Nat.succ_mul]
    omega

end

/-! ### The two multiples next to the number -/

theorem units_between (x : Magnitude) (places : Nat) :
    x.units / Nat.pow 10 places * Nat.pow 10 places ≤ x.units ∧
      x.units ≤ (x.units / Nat.pow 10 places + 1) * Nat.pow 10 places := by
  have positive : 0 < Nat.pow 10 places := Nat.pow_pos (by decide)
  refine ⟨Nat.div_mul_le_self _ _, Nat.le_of_lt ?_⟩
  exact Nat.lt_mul_of_div_lt (Nat.lt_succ_self _) positive

/-- No multiple lies between the two. -/
theorem multiple_cases (x : Magnitude) (places n : Nat) :
    n * Nat.pow 10 places ≤ x.units / Nat.pow 10 places * Nat.pow 10 places ∨
      (x.units / Nat.pow 10 places + 1) * Nat.pow 10 places ≤ n * Nat.pow 10 places := by
  rcases Nat.lt_or_ge (x.units / Nat.pow 10 places) n with above | below
  · exact .inr (Nat.mul_le_mul_right _ above)
  · exact .inl (Nat.mul_le_mul_right _ below)

section

variable (positive : 0 < x.significand) {places : Nat}
include positive

theorem not_reads_of_nearest?_eq_none (none : x.nearest? places = none) (n : Nat) :
    ¬ x.Reads (n * Nat.pow 10 places) := by
  obtain ⟨low, high⟩ := x.units_between places
  intro reads
  unfold nearest? at none
  dsimp only at none
  split at none
  · split at none <;> cases none
  · next noBelow =>
    split at none
    · cases none
    · next noAbove =>
      rcases x.multiple_cases places n with below | above
      · exact noBelow (reads.of_between positive (.inl ⟨below, low⟩))
      · exact noAbove (reads.of_between positive (.inr ⟨high, above⟩))

theorem nearest?_eq_some {digits : Nat} (some : x.nearest? places = some digits) :
    x.Reads (digits * Nat.pow 10 places) ∧ ∀ n, x.Reads (n * Nat.pow 10 places) →
      x.distance (digits * Nat.pow 10 places) ≤ x.distance (n * Nat.pow 10 places) := by
  obtain ⟨low, high⟩ := x.units_between places
  have rest := Nat.div_add_mod' x.units (Nat.pow 10 places)
  have step : (x.units / Nat.pow 10 places + 1) * Nat.pow 10 places =
    x.units / Nat.pow 10 places * Nat.pow 10 places + Nat.pow 10 places := Nat.succ_mul _ _
  unfold nearest? at some
  dsimp only at some
  split at some
  · next readsBelow =>
    split at some
    · next both =>
      cases some
      refine ⟨both.1, fun n _ => ?_⟩
      have near := both.2
      unfold distance
      rcases x.multiple_cases places n with below | above <;> omega
    · next other =>
      cases some
      refine ⟨readsBelow, fun n reads => ?_⟩
      unfold distance
      rcases x.multiple_cases places n with below | above
      · omega
      · have readsAbove := reads.of_between positive (.inr ⟨high, above⟩)
        have near : ¬ Nat.pow 10 places < 2 * (x.units % Nat.pow 10 places) :=
          fun nearer => other ⟨readsAbove, .inl nearer⟩
        omega
  · next noBelow =>
    split at some
    · next readsAbove =>
      cases some
      refine ⟨readsAbove, fun n reads => ?_⟩
      unfold distance
      rcases x.multiple_cases places n with below | above
      · exact absurd (reads.of_between positive (.inl ⟨below, low⟩)) noBelow
      · omega
    · cases some

/-! ### The fewest digits -/

theorem shortest_of_fewest (fewer : ∀ n k, places < k → ¬ x.Reads (n * Nat.pow 10 k)) :
    x.Shortest (x.shortest places).1 (x.shortest places).2 := by
  induction places with
  | zero =>
    have units : x.units * Nat.pow 10 0 = x.units := Nat.mul_one _
    refine ⟨?_, fewer, fun n _ => ?_⟩
    · rw [shortest, units]
      exact reads_units positive
    · rw [shortest, units]
      unfold distance
      omega
  | succ places ih =>
    unfold shortest
    cases found : x.nearest? (places + 1) with
    | some digits =>
      obtain ⟨reads, nearest⟩ := nearest?_eq_some positive found
      exact ⟨reads, fewer, nearest⟩
    | none =>
      refine ih fun n k more => ?_
      rcases Nat.eq_or_lt_of_le more with rfl | more
      · exact not_reads_of_nearest?_eq_none positive found n
      · exact fewer n k more

/-- **A number other than zero is shown by the nearest of the fewest digits that are read as it.** -/
theorem shortest_digits :
    let shown := x.shortest (Nat.toDigits 10 x.units).length
    x.Shortest shown.1 shown.2 := by
  refine shortest_of_fewest positive fun n places wide => ?_
  cases places with
  | zero => exact absurd wide (Nat.not_lt_zero _)
  | succ places => exact not_reads_of_length_le positive (Nat.le_of_lt_succ wide) n

end

/-- The decimal of sixteen digits that is nearest to `2 ^ -44` ends in 1, but it is read as the double before,
which is nearer than the one behind. -/
example : (Double.finite false ⟨⟨979, by decide⟩, ⟨0, by decide⟩⟩).text = "5.684341886080802e-14" := by
  decide +kernel

end Lexis.Magnitude

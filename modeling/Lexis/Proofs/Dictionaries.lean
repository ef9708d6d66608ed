import Lexis.Dictionary
import Mathlib.Data.List.Induction
import Mathlib.Data.List.Nodup
import Mathlib.Data.List.Perm.Subperm

/-!
# Dictionaries as mappings

A key is never twice in a dictionary, so looking it up is finding its entry (`get?_eq_some_iff`). Two
dictionaries are the same mapping just if their entries are the same in some order (`same_iff_perm`), and
just if no key that is looked up tells them apart (`same_iff_get?`). Entries with distinct keys are the
entries of the dictionary that they build (`entries_ofList`).
-/

namespace Lexis.Dictionary

variable {κ α : Type}

theorem nodup_entries (d : Dictionary κ α) : d.entries.Nodup := d.distinct.of_map _

variable [DecidableEq κ] {d e : Dictionary κ α} {k : κ} {a : α}

theorem get?_eq_some_iff : d.get? k = some a ↔ (k, a) ∈ d.entries := by
  constructor
  · intro found
    obtain ⟨before, behind, split, -⟩ := List.lookup_eq_some_iff.1 found
    rw [split]
    exact List.mem_append_right before List.mem_cons_self
  · intro member
    have some : (d.get? k).isSome = true :=
      List.lookup_isSome_iff.2 ⟨(k, a), member, beq_self_eq_true k⟩
    obtain ⟨b, found⟩ := Option.isSome_iff_exists.1 some
    obtain ⟨before, behind, split, -⟩ := List.lookup_eq_some_iff.1 found
    have other : (k, b) ∈ d.entries := split ▸ List.mem_append_right before List.mem_cons_self
    -- no key is there twice
    have one : (k, b) = (k, a) := List.inj_on_of_nodup_map d.distinct other member rfl
    rw [found, (Prod.mk.inj one).2]

theorem same_iff_perm : d.Same e ↔ d.entries.Perm e.entries := by
  constructor
  · rintro ⟨lengths, found⟩
    have inside : d.entries ⊆ e.entries := fun x member => get?_eq_some_iff.1 (found x member)
    exact (List.subperm_of_subset d.nodup_entries inside).perm_of_length_le (Nat.le_of_eq lengths.symm)
  · intro perm
    exact ⟨perm.length_eq, fun x member => get?_eq_some_iff.2 (perm.mem_iff.1 member)⟩

theorem same_iff_mem : d.Same e ↔ ∀ x, x ∈ d.entries ↔ x ∈ e.entries :=
  same_iff_perm.trans (List.perm_ext_iff_of_nodup d.nodup_entries e.nodup_entries)

/-- **Two dictionaries are the same mapping** just if every key has the same value in both. -/
theorem same_iff_get? : d.Same e ↔ ∀ k, d.get? k = e.get? k := by
  rw [same_iff_mem]
  constructor
  · intro members k
    refine Option.ext fun a => ?_
    rw [get?_eq_some_iff, get?_eq_some_iff, members]
  · rintro same ⟨k, a⟩
    rw [← get?_eq_some_iff, ← get?_eq_some_iff, same]

/-! ### Entries that are inserted -/

theorem put_of_not_mem {es : List (κ × α)} (fresh : k ∉ es.map (·.1)) (a : α) :
    put es k a = es ++ [(k, a)] := by
  induction es with
  | nil => rfl
  | cons e es ih =>
    rw [List.map_cons, List.mem_cons, not_or] at fresh
    unfold put
    rw [if_neg (Ne.symm fresh.1), ih fresh.2, List.cons_append]

theorem put_of_mem {es : List (κ × α)} (distinct : (es.map (·.1)).Nodup) (found : k ∈ es.map (·.1))
    (a : α) : put es k a = es.map fun e => if e.1 = k then (e.1, a) else e := by
  induction es with
  | nil => cases found
  | cons e es ih =>
    rw [List.map_cons, List.nodup_cons] at distinct
    obtain ⟨fresh, distinct⟩ := distinct
    rw [put, List.map_cons]
    by_cases here : e.1 = k
    · have others : es.map (fun e => if e.1 = k then (e.1, a) else e) = es.map id := by
        refine List.map_congr_left fun other member => if_neg fun same => fresh ?_
        rw [here, ← same]
        exact List.mem_map_of_mem member
      rw [if_pos here, if_pos here, others, List.map_id]
    · have later := (List.mem_cons.1 found).resolve_left (Ne.symm here)
      rw [if_neg here, if_neg here, ih distinct later]

theorem entries_ofList {es : List (κ × α)} (distinct : (es.map (·.1)).Nodup) :
    (ofList es).entries = es := by
  induction es using List.reverseRecOn with
  | nil => rfl
  | append_singleton es e ih =>
    rw [List.map_append, List.map_singleton, List.nodup_append_comm, List.singleton_append,
      List.nodup_cons] at distinct
    obtain ⟨fresh, distinct⟩ := distinct
    have inserted : ofList (es ++ [e]) = (ofList es).insert e.1 e.2 := List.foldl_append
    rw [inserted]
    show put (ofList es).entries e.1 e.2 = es ++ [e]
    rw [ih distinct, put_of_not_mem fresh]

end Lexis.Dictionary

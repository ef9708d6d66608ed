/-!
Dictionaries that keep their order: a key has the place of its first insertion and the value of its
last. Two dictionaries are the same mapping if every key has the same value in both, in whatever
order.
-/

namespace Lexis

/-- Keys with their values, no key twice. -/
structure Dictionary (κ α : Type) where
  entries : List (κ × α)
  distinct : (entries.map (·.1)).Nodup

namespace Dictionary

variable {κ α : Type} [DecidableEq κ]

def empty : Dictionary κ α := ⟨[], List.nodup_nil⟩

/-- The entries with a new value for a key, at the key's place or else at the end. -/
def put : List (κ × α) → κ → α → List (κ × α)
  | [], k, a => [(k, a)]
  | e :: es, k, a => if e.1 = k then (e.1, a) :: es else e :: put es k a

theorem map_fst_put (es : List (κ × α)) (k : κ) (a : α) :
    (put es k a).map (·.1) = if k ∈ es.map (·.1) then es.map (·.1) else es.map (·.1) ++ [k] := by
  induction es with
  | nil => rfl
  | cons e es ih =>
    unfold put
    split
    · next h => simp [h]
    · next h =>
      have h' : k ≠ e.1 := fun hk => h hk.symm
      rw [List.map_cons, ih, List.map_cons]
      simp only [List.mem_cons, h', false_or]
      split <;> rfl

/-- The dictionary with a new value for a key. -/
def insert (d : Dictionary κ α) (k : κ) (a : α) : Dictionary κ α where
  entries := put d.entries k a
  distinct := by
    rw [map_fst_put]
    split
    · exact d.distinct
    · next h =>
      refine List.nodup_append.2 ⟨d.distinct, by simp, ?_⟩
      intro x hx y hy hxy
      rw [List.mem_singleton.1 hy] at hxy
      exact h (hxy ▸ hx)

/-- The dictionary of a list of entries, inserted one after the other. -/
def ofList (es : List (κ × α)) : Dictionary κ α :=
  es.foldl (fun d e => d.insert e.1 e.2) empty

def get? (d : Dictionary κ α) (k : κ) : Option α := d.entries.lookup k

/-- Both have the same keys, with the same values. -/
def Same (d e : Dictionary κ α) : Prop :=
  d.entries.length = e.entries.length ∧ ∀ x ∈ d.entries, e.get? x.1 = some x.2

instance [DecidableEq α] (d e : Dictionary κ α) : Decidable (Same d e) :=
  inferInstanceAs (Decidable (_ ∧ _))

end Dictionary

end Lexis

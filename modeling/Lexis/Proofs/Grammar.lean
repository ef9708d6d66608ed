import Lexis.Piece

/-!
# The rules of the pieces

* `Regular text rest piece`: `text` can stand before `rest` as the piece `piece`. Each rule looks at
  most at the first character of `rest`;
* `Rule text rest piece`: the same with the last rule, of a single character that starts none of the
  others.

`next_of_rule` and `rule_next` say that `Piece.next` finds exactly the piece that the rules allow.
-/

namespace Lexis

/-! ### The rules -/

def soloChars : List Char :=
  ['(', ')', '{', '}', ',', '.', '-', '+', ';', '*', '\r', '\t']

/-- The characters that an equals sign behind them joins. -/
def pairChars : List Char := ['!', '=', '<', '>']

/-- A run of characters of the class ends before `rest`. -/
def EndsBefore (p : Char → Bool) (rest : List Char) : Prop := ∀ c ∈ rest.head?, p c = false

/-- The rules but the last: `text` can stand before `rest` as the given piece. -/
inductive Regular : List Char → List Char → Piece → Prop
  | solo {c m rest} : c ∈ soloChars → m.spelling = [c] → Regular [c] rest (.mark m)
  | paired {c m rest} : c ∈ pairChars → m.spelling = [c, '='] → Regular [c, '='] rest (.mark m)
  | bare {c m rest} : c ∈ pairChars → m.spelling = [c] → rest.head? ≠ some '=' →
      Regular [c] rest (.mark m)
  | slash {rest} : rest.head? ≠ some '/' → Regular ['/'] rest (.mark .slash)
  | comment {body rest} : '\n' ∉ body → rest = [] ∨ rest.head? = some '\n' →
      Regular ('/' :: '/' :: body) rest (.comment body)
  | quoted {q body rest} : q.char ∉ body →
      Regular (q.char :: (body ++ [q.char])) rest (.quoted q body)
  | unclosed {q body rest} : q.char ∉ body → rest = [] →
      Regular (q.char :: body) rest (.unclosed q body)
  | space {rest} : Regular [' '] rest .space
  | newline {rest} : Regular ['\n'] rest .newline
  | numeral {digits rest} : digits ≠ [] → digits.all Char.isDigit = true →
      EndsBefore Char.isDigit rest → Regular digits rest (.numeral digits)
  | word {c cs rest} : isWordStart c = true → cs.all isWordChar = true →
      EndsBefore isWordChar rest → Regular (c :: cs) rest (.word (c :: cs))

/-- **The rules of the pieces.** The last one is for a single character that starts no other piece. -/
inductive Rule : List Char → List Char → Piece → Prop
  | regular {text rest piece} : Regular text rest piece → Rule text rest piece
  | stray {c rest} : (∀ cs behind piece, ¬ Regular (c :: cs) behind piece) → Rule [c] rest (.stray c)

theorem Regular.text_eq {text rest : List Char} {piece : Piece} (h : Regular text rest piece) :
    piece.text = text := by
  cases h with
  | solo _ spelled => exact spelled
  | paired _ spelled => exact spelled
  | bare _ spelled _ => exact spelled
  | _ => rfl

theorem Rule.text_eq {text rest : List Char} {piece : Piece} (h : Rule text rest piece) :
    piece.text = text := by
  cases h with
  | regular h => exact h.text_eq
  | stray _ => rfl

/-! ### What a rule says of its piece -/

namespace Rule

variable {text rest body : List Char} {q : Quote}

theorem of_comment (h : Rule text rest (.comment body)) :
    '\n' ∉ body ∧ (rest = [] ∨ rest.head? = some '\n') := by
  cases h with
  | regular h =>
    cases h with
    | comment inside stop => exact ⟨inside, stop⟩

theorem of_unclosed (h : Rule text rest (.unclosed q body)) : q.char ∉ body ∧ rest = [] := by
  cases h with
  | regular h =>
    cases h with
    | unclosed inside stop => exact ⟨inside, stop⟩

theorem of_numeral (h : Rule text rest (.numeral body)) :
    body.all Char.isDigit = true ∧ EndsBefore Char.isDigit rest := by
  cases h with
  | regular h =>
    cases h with
    | numeral _ all ends => exact ⟨all, ends⟩

theorem of_stray {c : Char} (h : Rule text rest (.stray c)) :
    ∀ cs behind piece, ¬ Regular (c :: cs) behind piece := by
  cases h with
  | stray alone => exact alone
  | regular h => cases h

end Rule

/-! ### Runs of a class -/

theorem endsBefore_nil (p : Char → Bool) : EndsBefore p [] := by
  intro c hc
  cases hc

theorem IsWord.rule {spelling : List Char} (h : IsWord spelling) :
    Rule spelling [] (.word spelling) := by
  cases spelling with
  | nil => exact h.elim
  | cons c cs => exact .regular (.word h.1 h.2 (endsBefore_nil _))

theorem endsBefore_ne_iff {c : Char} {rest : List Char} :
    EndsBefore (· ≠ c) rest ↔ rest = [] ∨ rest.head? = some c := by
  cases rest with
  | nil => exact ⟨fun _ => .inl rfl, fun _ => endsBefore_nil _⟩
  | cons d ds => simp [EndsBefore]

theorem endsBefore_dropWhile (p : Char → Bool) (cs : List Char) :
    EndsBefore p (cs.dropWhile p) := by
  intro c hc
  have := List.head?_dropWhile_not p cs
  rw [Option.mem_def.1 hc] at this
  exact this

theorem takeWhile_of_endsBefore {p : Char → Bool} {rest : List Char} (h : EndsBefore p rest) :
    rest.takeWhile p = [] := by
  cases rest with
  | nil => rfl
  | cons c cs => exact List.takeWhile_cons_of_neg (by simp [h c rfl])

theorem dropWhile_of_endsBefore {p : Char → Bool} {rest : List Char} (h : EndsBefore p rest) :
    rest.dropWhile p = rest := by
  cases rest with
  | nil => rfl
  | cons c cs => exact List.dropWhile_cons_of_neg (by simp [h c rfl])

theorem takeWhile_run {p : Char → Bool} {run rest : List Char} (all : run.all p = true)
    (h : EndsBefore p rest) : (run ++ rest).takeWhile p = run := by
  rw [List.takeWhile_append_of_pos (List.all_eq_true.1 all), takeWhile_of_endsBefore h,
    List.append_nil]

theorem dropWhile_run {p : Char → Bool} {run rest : List Char} (all : run.all p = true)
    (h : EndsBefore p rest) : (run ++ rest).dropWhile p = rest := by
  rw [List.dropWhile_append_of_pos (List.all_eq_true.1 all), dropWhile_of_endsBefore h]

theorem eq_dropWhile {p : Char → Bool} {cs behind : List Char} (h : cs.takeWhile p ++ behind = cs) :
    behind = cs.dropWhile p :=
  List.append_cancel_left (h.trans List.takeWhile_append_dropWhile.symm)

theorem not_mem_takeWhile_ne (c : Char) (cs : List Char) : c ∉ cs.takeWhile (· ≠ c) := by
  intro h
  have := List.all_eq_true.1 List.all_takeWhile c h
  simp at this

theorem all_ne_of_not_mem {c : Char} {cs : List Char} (h : c ∉ cs) :
    cs.all (· ≠ c) = true := by
  simp only [List.all_eq_true, decide_eq_true_eq]
  rintro d hd rfl
  exact h hd

/-! ### The first character of a piece -/

theorem Mark.spelling_injective {m n : Mark} (h : m.spelling = n.spelling) : m = n := by
  have distinct : ∀ a ∈ Mark.all, ∀ b ∈ Mark.all, a.spelling = b.spelling → a = b := by decide
  exact distinct m (mem_all m) n (mem_all n) h

theorem Mark.solo?_eq_some_iff {c : Char} {m : Mark} :
    Mark.solo? c = some m ↔ c ∈ soloChars ∧ m.spelling = [c] := by
  constructor
  · intro h
    refine ⟨?_, spelling_of_solo? h⟩
    unfold solo? at h
    split at h <;> first | decide | cases h
  · rintro ⟨member, spelled⟩
    have found : (soloChars.all fun d => (Mark.solo? d).isSome) = true := by decide
    obtain ⟨n, hn⟩ := Option.isSome_iff_exists.1 (List.all_eq_true.1 found c member)
    rw [hn, spelling_injective ((spelling_of_solo? hn).trans spelled.symm)]

theorem Mark.isSome_pair? {c : Char} (h : c ∈ pairChars) : (Mark.pair? c).isSome = true := by
  have found : (pairChars.all fun d => (Mark.pair? d).isSome) = true := by decide
  exact List.all_eq_true.1 found c h

theorem Mark.mem_pairChars {c : Char} {bare paired : Mark}
    (h : Mark.pair? c = some (bare, paired)) : c ∈ pairChars := by
  unfold pair? at h
  split at h <;> first | decide | cases h

theorem Mark.solo?_eq_none {c : Char} (h : c ∉ soloChars) : Mark.solo? c = none := by
  cases found : Mark.solo? c with
  | none => rfl
  | some m => exact absurd (Mark.solo?_eq_some_iff.1 found).1 h

theorem Mark.pair?_eq_none {c : Char} (h : c ∉ pairChars) : Mark.pair? c = none := by
  cases found : Mark.pair? c with
  | none => rfl
  | some m => exact absurd (Mark.mem_pairChars found) h

theorem isWordStart_of_isDigit {c : Char} (h : c.isDigit = true) : isWordStart c = false := by
  have small : c.val.toNat ≤ 57 := (Char.isDigit_iff_toNat.1 h).2
  have upper : c.isUpper = false := by
    refine decide_eq_false fun range => ?_
    have : 65 ≤ c.val.toNat := range.1
    omega
  have lower : c.isLower = false := by
    refine Bool.and_eq_false_imp.2 fun low => absurd (of_decide_eq_true low) fun low => ?_
    have : 97 ≤ c.val.toNat := low
    omega
  have other : c ≠ '_' := by
    rintro rfl
    cases h
  exact Bool.or_eq_false_iff.2 ⟨Bool.or_eq_false_iff.2 ⟨upper, lower⟩, decide_eq_false other⟩

namespace Start

/-- The characters that start something and are neither digits nor letters. -/
def signs : List Char := soloChars ++ pairChars ++ ['/', '"', '\'', ' ', '\n']

theorem ofChar_of_solo {c : Char} {m : Mark} (h : c ∈ soloChars) (spelled : m.spelling = [c]) :
    ofChar c = solo m := by
  simp only [ofChar, Mark.solo?_eq_some_iff.2 ⟨h, spelled⟩]

theorem ofChar_of_mem_pairChars {c : Char} (h : c ∈ pairChars) :
    ∃ bare paired, ofChar c = pair bare paired ∧ bare.spelling = [c] ∧
      paired.spelling = [c, '='] := by
  obtain ⟨⟨bare, paired⟩, found⟩ := Option.isSome_iff_exists.1 (Mark.isSome_pair? h)
  have alone : (pairChars.all fun d => (Mark.solo? d).isNone) = true := by decide
  have none := Option.isNone_iff_eq_none.1 (List.all_eq_true.1 alone c h)
  refine ⟨bare, paired, ?_, Mark.spelling_of_pair? found⟩
  simp only [ofChar, none, found]

theorem ofChar_slash : ofChar '/' = slash := by decide

theorem ofChar_quote (q : Quote) : ofChar q.char = quote q := by cases q <;> decide

theorem ofChar_of_not_mem_signs {c : Char} (h : c ∉ signs) :
    ofChar c = if c.isDigit then digit else if isWordStart c then letter else nothing := by
  simp only [signs, List.mem_append, not_or, List.mem_cons, List.not_mem_nil, or_false] at h
  obtain ⟨⟨hsolo, hpair⟩, hslash, hdouble, hsingle, hspace, hnewline⟩ := h
  simp [ofChar, Mark.solo?_eq_none hsolo, Mark.pair?_eq_none hpair, Quote.ofChar?, Quote.char, *]

theorem ofChar_of_isDigit {c : Char} (h : c.isDigit = true) : ofChar c = digit := by
  have outside : (signs.all fun d => !d.isDigit) = true := by decide
  rw [ofChar_of_not_mem_signs, if_pos h]
  intro member
  have := List.all_eq_true.1 outside c member
  simp [h] at this

theorem ofChar_of_isWordStart {c : Char} (h : isWordStart c = true) : ofChar c = letter := by
  have outside : (signs.all fun d => !isWordStart d) = true := by decide
  have plain : c ∉ signs := by
    intro member
    have := List.all_eq_true.1 outside c member
    simp [h] at this
  have noDigit : ¬ c.isDigit = true := by
    intro digit
    rw [isWordStart_of_isDigit digit] at h
    cases h
  rw [ofChar_of_not_mem_signs plain, if_neg noDigit, if_pos h]

theorem mem_soloChars_of_ofChar {c : Char} {m : Mark} (h : ofChar c = solo m) :
    c ∈ soloChars := by
  unfold ofChar at h
  split at h
  · next found => exact (Mark.solo?_eq_some_iff.1 found).1
  · repeat' split at h
    all_goals cases h

theorem mem_pairChars_of_ofChar {c : Char} {bare paired : Mark} (h : ofChar c = pair bare paired) :
    c ∈ pairChars := by
  unfold ofChar at h
  split at h
  · cases h
  · split at h
    · next found => exact Mark.mem_pairChars found
    · repeat' split at h
      all_goals cases h

end Start

/-! ### The first piece of a text -/

namespace Piece

/-- A piece by a rule but the last is the one that is found. -/
theorem next_of_regular {text rest : List Char} {piece : Piece} (h : Regular text rest piece) :
    ∃ c tail, text ++ rest = c :: tail ∧ next c tail = piece := by
  cases h with
  | @solo c m _ member spelled =>
    exact ⟨c, rest, rfl, by simp only [next, Start.ofChar_of_solo member spelled]⟩
  | @paired c m _ member joined =>
    obtain ⟨bare, paired, found, -, joined'⟩ := Start.ofChar_of_mem_pairChars member
    obtain rfl : paired = m := Mark.spelling_injective (joined'.trans joined.symm)
    refine ⟨c, '=' :: rest, rfl, ?_⟩
    simp only [next, found, List.head?_cons, if_true]
  | @bare c m _ member spelled alone =>
    obtain ⟨bare, paired, found, spelled', -⟩ := Start.ofChar_of_mem_pairChars member
    obtain rfl : bare = m := Mark.spelling_injective (spelled'.trans spelled.symm)
    refine ⟨c, rest, rfl, ?_⟩
    simp only [next, found, alone, if_false]
  | slash alone =>
    refine ⟨'/', rest, rfl, ?_⟩
    simp only [next, Start.ofChar_slash]
    unfold ofSlash
    split
    · exact absurd rfl alone
    · rfl
  | @comment body _ inside stop =>
    refine ⟨'/', '/' :: (body ++ rest), rfl, ?_⟩
    simp only [next, Start.ofChar_slash, ofSlash]
    rw [takeWhile_run (all_ne_of_not_mem inside) (endsBefore_ne_iff.2 stop)]
  | @quoted q body _ inside =>
    refine ⟨q.char, body ++ [q.char] ++ rest, rfl, ?_⟩
    have ends : EndsBefore (· ≠ q.char) (q.char :: rest) := endsBefore_ne_iff.2 (.inr rfl)
    have all := all_ne_of_not_mem inside
    simp only [next, Start.ofChar_quote, ofQuote, List.append_assoc, List.cons_append,
      List.nil_append]
    rw [takeWhile_run all ends, dropWhile_run all ends]
  | @unclosed q body _ inside stop =>
    subst stop
    refine ⟨q.char, body, by simp, ?_⟩
    have all := all_ne_of_not_mem inside
    have taken := takeWhile_run all (endsBefore_nil _)
    have dropped := dropWhile_run all (endsBefore_nil _)
    rw [List.append_nil] at taken dropped
    simp only [next, Start.ofChar_quote, ofQuote, taken, dropped]
  | space => exact ⟨' ', rest, rfl, rfl⟩
  | newline => exact ⟨'\n', rest, rfl, rfl⟩
  | numeral some all ends =>
    obtain ⟨c, cs, rfl⟩ := List.exists_cons_of_ne_nil some
    rw [List.all_cons, Bool.and_eq_true] at all
    refine ⟨c, cs ++ rest, rfl, ?_⟩
    simp only [next, Start.ofChar_of_isDigit all.1]
    rw [takeWhile_run all.2 ends]
  | @word c cs _ first all ends =>
    refine ⟨c, cs ++ rest, rfl, ?_⟩
    simp only [next, Start.ofChar_of_isWordStart first]
    rw [takeWhile_run all ends]

theorem regular_ofSlash {rest behind : List Char} (h : (ofSlash rest).text ++ behind = '/' :: rest) :
    Regular (ofSlash rest).text behind (ofSlash rest) := by
  unfold ofSlash at h ⊢
  split at h
  · next tail =>
    obtain rfl : behind = tail.dropWhile (· ≠ '\n') := by
      simp only [text, List.cons_append, List.cons.injEq, true_and] at h
      exact eq_dropWhile h
    exact .comment (not_mem_takeWhile_ne _ _) (endsBefore_ne_iff.1 (endsBefore_dropWhile _ tail))
  · next alone =>
    obtain rfl : behind = rest := List.cons.inj h |>.2
    refine .slash fun second => ?_
    obtain ⟨tail, rfl⟩ := List.head?_eq_some_iff.1 second
    exact alone tail rfl

theorem regular_ofQuote {q : Quote} {rest behind : List Char}
    (h : (ofQuote q rest).text ++ behind = q.char :: rest) :
    Regular (ofQuote q rest).text behind (ofQuote q rest) := by
  have inside := not_mem_takeWhile_ne q.char rest
  unfold ofQuote at h ⊢
  dsimp only at h ⊢
  cases stop : rest.dropWhile (· ≠ q.char) with
  | nil =>
    simp only [stop, text, List.cons_append, List.cons.injEq, true_and] at h
    exact .unclosed inside ((eq_dropWhile h).trans stop)
  | cons d ds => exact .quoted inside

/-- What is found is a piece by a rule, unless its character starts nothing. -/
theorem regular_next {c : Char} {rest behind : List Char} (start : Start.ofChar c ≠ .nothing)
    (h : (next c rest).text ++ behind = c :: rest) :
    Regular (next c rest).text behind (next c rest) := by
  have describes := Start.ofChar_describes c
  unfold next at h ⊢
  cases found : Start.ofChar c with
  | solo m =>
    rw [found] at describes
    have spelled : m.spelling = [c] := describes
    simp only [text, spelled]
    exact .solo (Start.mem_soloChars_of_ofChar found) spelled
  | pair bare paired =>
    rw [found] at describes h
    obtain ⟨spelled, joined⟩ := describes
    have member := Start.mem_pairChars_of_ofChar found
    by_cases equals : rest.head? = some '='
    · simp only [equals, if_true, text, joined]
      exact .paired member joined
    · simp only [equals, if_false, text, spelled] at h ⊢
      obtain rfl : behind = rest := List.cons.inj h |>.2
      exact .bare member spelled equals
  | slash =>
    rw [found] at describes h
    obtain rfl : c = '/' := describes
    exact regular_ofSlash h
  | quote q =>
    rw [found] at describes h
    obtain rfl : c = q.char := describes
    exact regular_ofQuote h
  | space => exact .space
  | newline => exact .newline
  | digit =>
    rw [found] at describes h
    have first : c.isDigit = true := describes
    simp only [text, List.cons_append, List.cons.injEq, true_and] at h
    rw [eq_dropWhile h]
    have all : (c :: rest.takeWhile Char.isDigit).all Char.isDigit = true := by
      rw [List.all_cons, first, List.all_takeWhile]
      rfl
    exact .numeral (List.cons_ne_nil _ _) all (endsBefore_dropWhile _ _)
  | letter =>
    rw [found] at describes h
    simp only [text, List.cons_append, List.cons.injEq, true_and] at h
    rw [eq_dropWhile h]
    exact .word describes List.all_takeWhile (endsBefore_dropWhile _ _)
  | nothing => exact absurd found start

/-- **What is found is a piece by a rule.** -/
theorem rule_next {c : Char} {rest behind : List Char}
    (h : (next c rest).text ++ behind = c :: rest) :
    Rule (next c rest).text behind (next c rest) := by
  by_cases start : Start.ofChar c = .nothing
  · have alone : ∀ cs, next c cs = stray c := fun cs => by simp only [next, start]
    rw [alone]
    refine .stray fun cs other piece regular => ?_
    obtain ⟨d, tail, whole, found⟩ := next_of_regular regular
    obtain ⟨rfl, rfl⟩ := List.cons.inj whole
    rw [alone] at found
    subst found
    cases regular
  · exact .regular (regular_next start h)

/-- **A piece by a rule is the one that is found.** -/
theorem next_of_rule {text rest : List Char} {piece : Piece} (h : Rule text rest piece) :
    ∃ c tail, text ++ rest = c :: tail ∧ next c tail = piece := by
  cases h with
  | regular h => exact next_of_regular h
  | @stray c _ alone =>
    refine ⟨c, rest, rfl, ?_⟩
    have start : Start.ofChar c = .nothing := by
      refine Decidable.byContradiction fun start => ?_
      obtain ⟨behind, whole⟩ := text_next_isPrefix c rest
      have regular := regular_next start whole
      obtain ⟨d, ds, shape⟩ := List.exists_cons_of_ne_nil (text_next_ne_nil c rest)
      rw [shape] at whole regular
      obtain rfl : d = c := (List.cons.inj whole).1
      exact alone ds behind _ regular
    simp only [next, start]

end Piece

end Lexis

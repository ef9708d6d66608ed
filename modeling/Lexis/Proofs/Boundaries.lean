import Lexis.Proofs.Cutting

/-!
# What ends a piece

`piece.goesOn c` says that the piece would go on with the character `c`. By `Rule.iff_endsBefore` that
is all a rule asks of the text behind its piece: a piece that can stand at the end of a text can stand
before `rest` if it does not go on with the first character of `rest`.

`Fitting.replace` puts other pieces behind fitting ones; only the last of these can be disturbed. So any
first pieces of a source are the pieces of their own text: `Piece.cut_take`.
-/

namespace Lexis

/-- The character that a mark does not stand alone before. -/
def Mark.joined? : Mark → Option Char
  | bang | equal | greater | less => some '='
  | slash => some '/'
  | _ => none

/-- The piece would go on with that character behind it. -/
def Piece.goesOn : Piece → Char → Bool
  | mark m, c => m.joined? = some c
  | comment _, c => c ≠ '\n'
  | unclosed _ _, _ => true
  | numeral _, c => c.isDigit
  | word _, c => isWordChar c
  | _, _ => false

/-! ### The marks -/

theorem Mark.joined?_table (m : Mark) :
    (m.spelling ∈ soloChars.map ([·]) → m.joined? = none) ∧
      (m.spelling ∈ pairChars.map ([·, '=']) → m.joined? = none) ∧
      (m.spelling ∈ pairChars.map ([·]) → m.joined? = some '=') := by
  cases m <;> decide

theorem Mark.joined?_of_solo {c : Char} {m : Mark} (member : c ∈ soloChars)
    (spelled : m.spelling = [c]) : m.joined? = none :=
  m.joined?_table.1 (spelled ▸ List.mem_map_of_mem member)

theorem Mark.joined?_of_paired {c : Char} {m : Mark} (member : c ∈ pairChars)
    (spelled : m.spelling = [c, '=']) : m.joined? = none :=
  m.joined?_table.2.1 (spelled ▸ List.mem_map.2 ⟨c, member, rfl⟩)

theorem Mark.joined?_of_bare {c : Char} {m : Mark} (member : c ∈ pairChars)
    (spelled : m.spelling = [c]) : m.joined? = some '=' :=
  m.joined?_table.2.2 (spelled ▸ List.mem_map_of_mem member)

theorem Piece.goesOn_mark_of_none {m : Mark} (h : m.joined? = none) (c : Char) :
    (mark m).goesOn c = false := by
  simp [goesOn, h]

theorem Piece.endsBefore_mark_iff {m : Mark} {c : Char} (h : m.joined? = some c)
    {rest : List Char} : EndsBefore (mark m).goesOn rest ↔ rest.head? ≠ some c := by
  cases rest with
  | nil => simp [EndsBefore]
  | cons d ds => simp [EndsBefore, goesOn, h, eq_comm]

/-! ### Blanks -/

theorem Piece.goesOn_newline {piece : Piece} (closed : ∀ q body, piece ≠ .unclosed q body) :
    piece.goesOn '\n' = false := by
  cases piece with
  | mark m => cases m <;> rfl
  | unclosed q body => exact absurd rfl (closed q body)
  | _ => rfl

theorem Piece.goesOn_space {piece : Piece} {c : Char} (stops : piece.goesOn c = false)
    (noFeed : c ≠ '\n') : piece.goesOn ' ' = false := by
  cases piece with
  | mark m => cases m <;> rfl
  | comment body => simp [goesOn, noFeed] at stops
  | unclosed q body => cases stops
  | _ => rfl

/-! ### Rules and the text behind -/

theorem endsBefore_cons_iff {p : Char → Bool} {c : Char} {cs : List Char} :
    EndsBefore p (c :: cs) ↔ p c = false := by
  simp [EndsBefore]

theorem endsBefore_of_none {p : Char → Bool} (none : ∀ c, p c = false) (rest : List Char) :
    EndsBefore p rest := fun c _ => none c

theorem EndsBefore.of_head {p : Char → Bool} {rest other : List Char} (h : EndsBefore p rest)
    (same : other.head? = rest.head?) : EndsBefore p other := by
  intro c hc
  rw [same] at hc
  exact h c hc

section

variable {text rest other : List Char} {piece : Piece}

theorem Regular.iff_endsBefore :
    Regular text rest piece ↔ Regular text [] piece ∧ EndsBefore piece.goesOn rest := by
  constructor
  · intro h
    cases h with
    | solo member spelled =>
      have free := Piece.goesOn_mark_of_none (Mark.joined?_of_solo member spelled)
      exact ⟨.solo member spelled, endsBefore_of_none free rest⟩
    | paired member spelled =>
      have free := Piece.goesOn_mark_of_none (Mark.joined?_of_paired member spelled)
      exact ⟨.paired member spelled, endsBefore_of_none free rest⟩
    | bare member spelled alone =>
      have joined := Mark.joined?_of_bare member spelled
      exact ⟨.bare member spelled nofun, (Piece.endsBefore_mark_iff joined).2 alone⟩
    | slash alone => exact ⟨.slash nofun, (Piece.endsBefore_mark_iff rfl).2 alone⟩
    | comment inside stop => exact ⟨.comment inside (.inl rfl), endsBefore_ne_iff.2 stop⟩
    | quoted inside => exact ⟨.quoted inside, endsBefore_of_none (fun _ => rfl) rest⟩
    | unclosed inside stop =>
      subst stop
      exact ⟨.unclosed inside rfl, endsBefore_nil _⟩
    | space => exact ⟨.space, endsBefore_of_none (fun _ => rfl) rest⟩
    | newline => exact ⟨.newline, endsBefore_of_none (fun _ => rfl) rest⟩
    | numeral nonempty all ends => exact ⟨.numeral nonempty all (endsBefore_nil _), ends⟩
    | word first all ends => exact ⟨.word first all (endsBefore_nil _), ends⟩
  · rintro ⟨h, ends⟩
    cases h with
    | solo member spelled => exact .solo member spelled
    | paired member spelled => exact .paired member spelled
    | bare member spelled _ =>
      have joined := Mark.joined?_of_bare member spelled
      exact .bare member spelled ((Piece.endsBefore_mark_iff joined).1 ends)
    | slash _ => exact .slash ((Piece.endsBefore_mark_iff rfl).1 ends)
    | comment inside _ => exact .comment inside (endsBefore_ne_iff.1 ends)
    | quoted inside => exact .quoted inside
    | unclosed inside _ =>
      cases rest with
      | nil => exact .unclosed inside rfl
      | cons c cs => cases ends c rfl
    | space => exact .space
    | newline => exact .newline
    | numeral nonempty all _ => exact .numeral nonempty all ends
    | word first all _ => exact .word first all ends

/-- **What a rule asks of the text behind its piece**: that the piece does not go on with it. -/
theorem Rule.iff_endsBefore :
    Rule text rest piece ↔ Rule text [] piece ∧ EndsBefore piece.goesOn rest := by
  constructor
  · intro h
    cases h with
    | stray alone => exact ⟨.stray alone, endsBefore_of_none (fun _ => rfl) rest⟩
    | regular h => exact (Regular.iff_endsBefore.1 h).imp_left .regular
  · rintro ⟨h, ends⟩
    cases h with
    | stray alone => exact .stray alone
    | regular h => exact .regular (Regular.iff_endsBefore.2 ⟨h, ends⟩)

namespace Rule

theorem at_end (h : Rule text rest piece) : Rule text [] piece := (iff_endsBefore.1 h).1

theorem cons_iff {c : Char} {cs : List Char} :
    Rule text (c :: cs) piece ↔ Rule text [] piece ∧ piece.goesOn c = false := by
  rw [iff_endsBefore, endsBefore_cons_iff]

/-- A rule looks no further than at the first character behind its piece. -/
theorem of_head (h : Rule text rest piece) (same : other.head? = rest.head?) :
    Rule text other piece := by
  obtain ⟨alone, ends⟩ := iff_endsBefore.1 h
  exact iff_endsBefore.2 ⟨alone, ends.of_head same⟩

theorem of_space {c : Char} {cs ds : List Char} (h : Rule text (c :: cs) piece)
    (noFeed : c ≠ '\n') : Rule text (' ' :: ds) piece := by
  obtain ⟨alone, stops⟩ := cons_iff.1 h
  exact cons_iff.2 ⟨alone, Piece.goesOn_space stops noFeed⟩

theorem before_newline {cs : List Char} (h : Rule text rest piece)
    (closed : ∀ q body, piece ≠ .unclosed q body) : Rule text ('\n' :: cs) piece :=
  cons_iff.2 ⟨h.at_end, Piece.goesOn_newline closed⟩

end Rule

end

/-! ### Fitting pieces and the text behind -/

/-- **Other pieces behind fitting ones.** Only a piece that nothing but the old ones follows has to be
looked at again. -/
theorem Fitting.replace {pieces behind others : List Piece} (h : Fitting (pieces ++ behind))
    (h' : Fitting others)
    (joint : ∀ piece ∈ pieces, Rule piece.text (behind.flatMap Piece.text) piece →
      Rule piece.text (others.flatMap Piece.text) piece) :
    Fitting (pieces ++ others) := by
  induction pieces with
  | nil => exact h'
  | cons piece pieces ih =>
    obtain ⟨rule, fits⟩ := h
    refine ⟨?_, ih fits fun other member => joint other (List.mem_cons_of_mem _ member)⟩
    show Rule piece.text ((pieces ++ others).flatMap Piece.text) piece
    have rule : Rule piece.text ((pieces ++ behind).flatMap Piece.text) piece := rule
    rw [List.flatMap_append] at rule ⊢
    -- the piece meets the new text only if no text of `pieces` stands between
    cases texts : pieces.flatMap Piece.text with
    | nil =>
      rw [texts] at rule
      exact joint piece List.mem_cons_self rule
    | cons c cs =>
      rw [texts] at rule
      exact rule.of_head rfl

theorem Fitting.of_append_left {pieces behind : List Piece} (h : Fitting (pieces ++ behind)) :
    Fitting pieces := by
  have fits : Fitting (pieces ++ []) := h.replace trivial fun _ _ rule => rule.at_end
  rwa [List.append_nil] at fits

namespace Piece

variable {source : List Char} {front behind : List Piece}

theorem flatMap_text_append (h : cut source = front ++ behind) :
    front.flatMap text ++ behind.flatMap text = source := by
  rw [← List.flatMap_append, ← h, flatMap_text_cut]

theorem cut_take (h : cut source = front ++ behind) :
    cut (source.take (front.flatMap text).length) = front := by
  have whole := flatMap_text_append h
  have fits : Fitting (front ++ behind) := h ▸ fitting_cut source
  rw [← whole, List.take_left, cut_flatMap_text fits.of_append_left]

theorem cut_drop (h : cut source = front ++ behind) :
    cut (source.drop (front.flatMap text).length) = behind := by
  have whole := flatMap_text_append h
  have fits : Fitting (front ++ behind) := h ▸ fitting_cut source
  rw [← whole, List.drop_left, cut_flatMap_text fits.of_append]

/-- A piece of a source stands in it before the text that the piece ends before. -/
theorem rule_of_cut {piece : Piece} (h : cut source = front ++ piece :: behind) :
    front.flatMap text ++ (piece.text ++ behind.flatMap text) = source ∧
      Rule piece.text (behind.flatMap text) piece :=
  ⟨flatMap_text_append h, (h ▸ fitting_cut source).of_append.1⟩

theorem length_flatMap_lt (h : cut source = front ++ behind) (more : behind ≠ []) :
    (front.flatMap text).length < source.length := by
  obtain ⟨piece, pieces, rfl⟩ := List.exists_cons_of_ne_nil more
  obtain ⟨whole, rule⟩ := rule_of_cut h
  have positive : 0 < piece.text.length := by
    rw [rule.text_eq]
    exact List.length_pos_iff.2 rule.text_ne_nil
  rw [← whole, List.length_append, List.length_append]
  omega

end Piece

end Lexis

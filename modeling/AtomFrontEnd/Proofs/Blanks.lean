import AtomFrontEnd.Proofs.Munch

/-!
What a blank ends.

No token but a literal in quotes has a blank inside, and neither does a mark that opens or
closes a piece. So if a piece goes on over a blank, then what it has before the blank is
blanks as well, or it is the beginning of a comment or of a literal that nothing has
closed yet (`Lexeme.blanks_or_goesOn`). Wherever else a blank comes, a piece ends as it
would at the end of the source.
-/

namespace AtomFrontEnd

open Text

variable {kind : TokenKind} {value text following blanks source : List Char}
  {l : Literal} {c : Char} {sense : Option (TokenKind × List Char)}

/-! ## Tokens without blanks -/

theorem Digits.isBlank_eq_false (h : Digits text) : ∀ c ∈ text, isBlank c = false :=
  fun c hc => isBlank_eq_false_of_isDigit (h c hc)

theorem isBlank_eq_false_of_mem {marks : List Char}
    (apart : (marks.all fun c => !isBlank c) = true) : ∀ c ∈ marks, isBlank c = false :=
  fun c hc => by simpa using List.all_eq_true.mp apart c hc

theorem Number.isBlank_eq_false (h : Number l text) : ∀ c ∈ text, isBlank c = false := by
  cases h with
  | hexadecimal mark digits =>
    simp only [List.forall_mem_cons]
    exact ⟨rfl, isBlank_eq_false_of_mem rfl _ mark,
      fun c hc => isBlank_eq_false_of_isHexDigit (digits c hc)⟩
  | padded _ digits => exact List.forall_mem_cons.mpr ⟨rfl, digits.isBlank_eq_false⟩
  | decimal hw hf he =>
    simp only [List.forall_mem_append]
    refine ⟨(digits_of_whole hw).isBlank_eq_false, ?_, ?_⟩
    · cases hf with
      | none => simp
      | point digits => exact List.forall_mem_cons.mpr ⟨rfl, digits.isBlank_eq_false⟩
    · cases he with
      | none => simp
      | @mark m sign _ mark hsign digits =>
        simp only [List.forall_mem_cons, List.forall_mem_append]
        refine ⟨isBlank_eq_false_of_mem rfl m mark, ?_, digits.isBlank_eq_false⟩
        simp only [List.mem_cons, List.not_mem_nil, or_false] at hsign
        rcases hsign with rfl | rfl | rfl <;> exact isBlank_eq_false_of_mem rfl

theorem Symbol.isBlank_eq_false (m : Symbol) : ∀ c ∈ m.spelling, isBlank c = false := by
  cases m <;> exact isBlank_eq_false_of_mem rfl

theorem Literal.isBlank_quote {quote : Char} (h : l.quote? = some quote) :
    isBlank quote = false := by
  cases l <;> cases h <;> rfl

theorem Lexeme.not_blanks (h : Lexeme following (some (kind, value)) text) :
    ¬ ∀ c ∈ text, isBlank c = true :=
  fun blank => absurd (h.sense_unique (.blank h.ne_nil blank)) (by simp)

/-! ## Pieces that a blank does not end -/

/-- The text is the beginning of a piece that goes on over a blank `c` after it: a literal
in quotes or a block comment that nothing has closed yet, or, unless the blank is a newline,
a line comment. -/
inductive GoesOn (c : Char) : List Char → Prop where
  | literal {l : Literal} {quote : Char} {text : List Char} :
    l.quote? = some quote → quote ∉ text → GoesOn c (quote :: text)
  | blockComment {text : List Char} : ¬ ['*', '/'] <:+: text → GoesOn c ('/' :: '*' :: text)
  | lineComment {text : List Char} : '\n' ∉ text → c ≠ '\n' → GoesOn c ('/' :: '/' :: text)

/-- At the end of a source, what would go on is a piece. -/
theorem GoesOn.exists_lexeme (h : GoesOn c text) : ∃ sense, Lexeme [] sense text := by
  cases h with
  | literal quoted inside => exact ⟨_, .openLiteral quoted inside⟩
  | blockComment inside => exact ⟨_, .openComment inside⟩
  | lineComment line => exact ⟨_, .lineComment line (by simp)⟩

/-- A token goes on over nothing, unless it is a literal that the end closes. -/
theorem Lexeme.not_goesOn (h : Lexeme following (some (kind, value)) text)
    (before : following ≠ []) : ¬ GoesOn c text := by
  intro goesOn
  cases goesOn with
  | literal quoted inside =>
    rw [lexeme_cons_iff, front_of_quote quoted] at h
    obtain ⟨_, -, -, rfl | ⟨-, atEnd⟩⟩ := h
    · exact inside (List.mem_append_right _ List.mem_cons_self)
    · exact before atEnd
  | blockComment =>
    rw [lexeme_cons_iff] at h
    rcases h with ⟨-, e⟩ | ⟨e, -⟩ | ⟨e, -⟩ <;> cases e
  | lineComment =>
    rw [lexeme_cons_iff] at h
    rcases h with ⟨-, e⟩ | ⟨e, -⟩ | ⟨e, -⟩ <;> cases e

theorem Closes.exists_inside {closing more : List Char}
    (closed : Closes closing following value (text ++ c :: more)) (other : c ∉ closing) :
    ∃ rest, value = text ++ c :: rest := by
  rcases closed with e | ⟨e, -⟩
  · rcases List.append_eq_append_iff.mp e with ⟨tail, inside, atEnd⟩ | ⟨tail, -, beyond⟩
    · cases tail with
      | nil =>
        rw [List.nil_append] at atEnd
        exact absurd (atEnd ▸ List.mem_cons_self) other
      | cons d tail =>
        obtain ⟨rfl, -⟩ := List.cons.inj atEnd
        exact ⟨tail, inside⟩
    · exact absurd (beyond ▸ List.mem_append_right tail List.mem_cons_self) other
  · exact ⟨more, e.symm⟩

/-- What a piece has before a blank is blanks, or goes on over it. -/
theorem Lexeme.blanks_or_goesOn {more : List Char} (h : Lexeme following sense (text ++ c :: more))
    (nonempty : text ≠ []) (blank : isBlank c = true) :
    (∀ d ∈ text, isBlank d = true) ∨ GoesOn c text := by
  have ne : ∀ {d : Char}, isBlank d = false → c ≠ d := by
    rintro d apart rfl
    simp [apart] at blank
  obtain ⟨d, text, rfl⟩ := List.exists_cons_of_ne_nil nonempty
  rw [List.cons_append, lexeme_cons_iff] at h
  have holds := holds_front d
  generalize front d = first at h holds
  cases first with
  | blank =>
    exact .inl (List.forall_mem_cons.mpr ⟨holds, fun x hx => h.2 x (List.mem_append_left _ hx)⟩)
  | slash =>
    cases holds
    rcases h with ⟨-, e⟩ | ⟨-, value, e, line, -⟩ | ⟨-, value, rest, e, inside, closed⟩
    · exact absurd (List.append_eq_nil_iff.mp e).2 (List.cons_ne_nil c more)
    · cases text with
      | nil => exact absurd (List.cons.inj e).1 (ne rfl)
      | cons x text =>
        rw [List.cons_append] at e
        obtain ⟨rfl, rfl⟩ := List.cons.inj e
        rw [List.mem_append, List.mem_cons, not_or, not_or] at line
        exact .inr (.lineComment line.1 (Ne.symm line.2.1))
    · cases text with
      | nil => exact absurd (List.cons.inj e).1 (ne rfl)
      | cons x text =>
        rw [List.cons_append] at e
        obtain ⟨rfl, rfl⟩ := List.cons.inj e
        have marks : ∀ d ∈ ['*', '/'], isBlank d = false := isBlank_eq_false_of_mem rfl
        have apart : c ∉ ['*', '/'] := fun h => ne (marks c h) rfl
        obtain ⟨rest, rfl⟩ := closed.exists_inside apart
        exact .inr (.blockComment fun within =>
          inside (within.trans (List.prefix_append ..).isInfix))
  | quote l =>
    obtain ⟨value, -, inside, closed⟩ := h
    have other : c ∉ [d] := by simpa using ne (Literal.isBlank_quote holds)
    obtain ⟨rest, rfl⟩ := closed.exists_inside other
    exact .inr (.literal holds fun h => inside (List.mem_append_left _ h))
  | digit =>
    obtain ⟨_, -, number⟩ := h
    exact absurd rfl (ne (number.isBlank_eq_false c (by simp)))
  | letter => exact absurd blank (not_isBlank_of_isWordPart (h.2 c (by simp)))
  | mark =>
    obtain ⟨m, -, spelling⟩ := h
    exact absurd rfl (ne (m.isBlank_eq_false c (by simp [spelling])))

theorem longestLexeme_blanks (nonempty : blanks ≠ []) (blank : ∀ c ∈ blanks, isBlank c = true)
    (stop : ∀ c ∈ following.head?, isBlank c = false) : LongestLexeme following none blanks := by
  refine ⟨.blank nonempty blank, fun {following'} sense text' h' e => ?_⟩
  obtain ⟨c, text', rfl⟩ := List.exists_cons_of_ne_nil h'.ne_nil
  obtain ⟨b, blanks, rfl⟩ := List.exists_cons_of_ne_nil nonempty
  obtain ⟨rfl, -⟩ := List.cons.inj e
  have first : isBlank c = true := blank c List.mem_cons_self
  rw [lexeme_cons_iff, front_of_isBlank first] at h'
  have reach := length_le_runLength following' (List.forall_mem_cons.mpr ⟨first, h'.2⟩)
  rwa [e, runLength_append following blank, runLength_eq_zero stop] at reach

end AtomFrontEnd

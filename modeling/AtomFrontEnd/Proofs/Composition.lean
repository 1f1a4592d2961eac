import AtomFrontEnd.Proofs.Printing

/-!
A source is scanned in parts that a blank keeps apart.

The scanner carries nothing from one piece to the next but the line. So a source can be
cut at a blank, and what is before and after it scanned alone, provided that the part
before does not end in the middle of something that goes on over the blank. Every piece
of that part is then the longest also when the blank and the rest come after it
(`LongestLexeme.append_blank`), and what is stray stays so (`Stray.append_blank`). Only
blanks at the seam grow together, which changes no token (`Munches.blanks_append`). The
rest is munched as it is from line one, some lines further down (`Munches.lowered`).
-/

namespace AtomFrontEnd

open Text

/-- The token, so many lines further down. -/
def Token.lowered (n : Nat) (t : Token) : Token := { t with line := n + t.line }

def Warning.lowered (n : Nat) (w : Warning) : Warning := { w with line := n + w.line }

variable {text following blanks source back : List Char} {c : Char}
  {sense : Option (TokenKind × List Char)} {line : Nat} {pieces pieces' : List (List Char)}
  {tokens tokens' : List Token} {warnings warnings' : List Warning}

/-! ## Further down -/

theorem Munches.lowered (h : Munches line source pieces tokens warnings) (n : Nat) :
    Munches (n + line) source pieces (tokens.map (Token.lowered n)) (warnings.map (Warning.lowered n)) := by
  induction h with
  | done => exact .done
  | skipped longest _ ih =>
    rw [← Nat.add_assoc] at ih
    exact .skipped longest ih
  | token longest _ ih =>
    rw [← Nat.add_assoc] at ih
    exact .token longest ih
  | stray stray _ ih =>
    rw [← Nat.add_assoc] at ih
    exact .stray stray ih

/-! ## Pieces before a blank -/

theorem Lexeme.of_append (h : Lexeme (following ++ c :: back) sense text) :
    Lexeme following sense text := by
  generalize e : following ++ c :: back = whole at h
  cases h with
  | blank nonempty blank => exact .blank nonempty blank
  | lineComment line ends =>
    refine .lineComment line fun d hd => ends d ?_
    rw [← e, List.head?_append, Option.mem_def.mp hd]
    rfl
  | blockComment inside => exact .blockComment inside
  | openComment => exact absurd (List.append_eq_nil_iff.mp e).2 (List.cons_ne_nil c back)
  | token spelled => exact .token spelled
  | openLiteral => exact absurd (List.append_eq_nil_iff.mp e).2 (List.cons_ne_nil c back)

/-- A piece at the front of a source with a blank after it lies within the source, or the
whole source is a piece that the blank does not end. -/
theorem Lexeme.within_or (h : Lexeme following sense text) (blank : isBlank c = true)
    (nonempty : source ≠ []) (e : text ++ following = source ++ c :: back) :
    (∃ rest, Lexeme rest sense text ∧ text ++ rest = source) ∨
      ((∀ d ∈ source, isBlank d = true) ∨ GoesOn c source) ∧ ∃ sense', Lexeme [] sense' source := by
  rcases List.append_eq_append_iff.mp e with ⟨rest, rfl, rfl⟩ | ⟨more, rfl, e'⟩
  · exact .inl ⟨rest, h.of_append, rfl⟩
  cases more with
  | nil =>
    rw [List.append_nil] at h
    rw [List.nil_append] at e'
    have here : Lexeme ([] ++ c :: back) sense source := e' ▸ h
    exact .inl ⟨[], by simpa using here.of_append, by simp⟩
  | cons d more =>
    obtain ⟨rfl, -⟩ := List.cons.inj e'
    right
    rcases h.blanks_or_goesOn nonempty blank with blanks | goesOn
    · exact ⟨.inl blanks, none, .blank nonempty blanks⟩
    · exact ⟨.inr goesOn, goesOn.exists_lexeme⟩

/-- A longest piece is still the longest if a blank and more come after the source. Where the
piece is the last, it must be one that the blank ends. -/
theorem LongestLexeme.append_blank (longest : LongestLexeme following sense text)
    (blank : isBlank c = true)
    (ends : following = [] → ¬ (∀ d ∈ text, isBlank d = true) ∧ ¬ GoesOn c text) :
    LongestLexeme (following ++ c :: back) sense text := by
  have lexeme := longest.lexeme
  refine ⟨?_, fun {following'} sense' text' h e => ?_⟩
  · cases lexeme with
    | blank nonempty blank => exact .blank nonempty blank
    | lineComment line newline =>
      refine .lineComment line fun d hd => ?_
      cases following with
      | nil =>
        cases hd
        exact Classical.byContradiction fun other => (ends rfl).2 (.lineComment line other)
      | cons x following => exact newline d hd
    | blockComment inside => exact .blockComment inside
    | openComment inside => exact absurd (.blockComment inside) (ends rfl).2
    | token spelled => exact .token spelled
    | openLiteral quoted inside => exact absurd (.literal quoted inside) (ends rfl).2
  · rw [← List.append_assoc] at e
    have nonempty : text ++ following ≠ [] := fun e => lexeme.ne_nil (List.append_eq_nil_iff.mp e).1
    rcases h.within_or blank nonempty e with ⟨rest, h', e'⟩ | ⟨goesOn, _, whole⟩
    · exact longest.longest h' e'
    · -- The whole source would be a piece, and so the longest.
      have len := longest.longest whole (List.append_nil _)
      have last : following = [] := by
        rw [List.length_append] at len
        exact List.eq_nil_of_length_eq_zero (by omega)
      subst last
      rw [List.append_nil] at goesOn
      rcases goesOn with blanks | goesOn
      · exact absurd blanks (ends rfl).1
      · exact absurd goesOn (ends rfl).2

theorem Stray.append_blank (stray : Stray source) (nonempty : source ≠ [])
    (blank : isBlank c = true) : Stray (source ++ c :: back) := by
  intro following sense text h e
  rcases h.within_or blank nonempty e with ⟨rest, h', e'⟩ | ⟨-, sense', whole⟩
  · exact stray _ _ _ h' e'
  · exact stray _ _ _ whole (List.append_nil source)

/-! ## Sources before a blank -/

/-- Blanks before a source give nothing but their newlines, also where they grow together
with blanks that it begins with. -/
theorem Munches.blanks_append (nonempty : blanks ≠ []) (blank : ∀ c ∈ blanks, isBlank c = true)
    (h : Munches (line + newlines blanks) source pieces tokens warnings) :
    ∃ pieces', Munches line (blanks ++ source) pieces' tokens warnings := by
  obtain ⟨more, rest, rfl, -, moreBlank, stop⟩ := exists_runLength isBlank source
  have allBlank : ∀ c ∈ blanks ++ more, isBlank c = true :=
    List.forall_mem_append.mpr ⟨blank, moreBlank⟩
  have longest : LongestLexeme rest none (blanks ++ more) :=
    longestLexeme_blanks (fun e => nonempty (List.append_eq_nil_iff.mp e).1) allBlank stop
  have munchesRest : ∃ pieces', Munches (line + newlines (blanks ++ more)) rest pieces' tokens
      warnings := by
    rw [newlines_append, ← Nat.add_assoc]
    by_cases none : more = []
    · subst none
      exact ⟨_, h⟩
    · obtain ⟨pieces', _, -, rfl, munches⟩ := h.of_longest (longestLexeme_blanks none moreBlank stop)
      exact ⟨pieces', munches⟩
  obtain ⟨pieces', munches⟩ := munchesRest
  rw [← List.append_assoc]
  exact ⟨_, .skipped longest munches⟩

theorem of_mem_getLast?_tail {α : Type} {x y : α} {l : List α} (h : y ∈ l.getLast?) :
    y ∈ (x :: l).getLast? := by
  cases l with
  | nil => cases h
  | cons z l => rwa [List.getLast?_cons_cons]

/-- A source and one after it, with a blank between them, are munched to what the two are
munched to, but for the end of the first, if this does not end in the middle of something
that goes on over the blank. -/
theorem Munches.append_blank (h : Munches line source pieces tokens warnings)
    (blank : isBlank c = true) (ends : ∀ text ∈ pieces.getLast?, ¬ GoesOn c text)
    (h' : Munches (line + newlines (source ++ [c])) back pieces' tokens' warnings') :
    ∃ body last joined, tokens = body ++ [.endAt last] ∧
      Munches line (source ++ c :: back) joined (body ++ tokens') (warnings ++ warnings') := by
  induction h with
  | @done line =>
    obtain ⟨joined, munches⟩ := Munches.blanks_append (List.cons_ne_nil c [])
      (by simpa using blank) h'
    exact ⟨[], line, joined, rfl, munches⟩
  | @skipped line text following pieces tokens warnings longest rest ih =>
    rw [List.append_assoc, newlines_append, ← Nat.add_assoc] at h'
    obtain ⟨body, last, joined, e, munches⟩ :=
      ih (fun text h => ends text (of_mem_getLast?_tail h)) h'
    rw [List.append_assoc]
    by_cases blanks : ∀ d ∈ text, isBlank d = true
    · obtain ⟨joined', munches'⟩ := munches.blanks_append longest.lexeme.ne_nil blanks
      exact ⟨body, last, joined', e, munches'⟩
    · refine ⟨body, last, _, e, .skipped (longest.append_blank blank fun atEnd => ⟨blanks, ?_⟩) munches⟩
      subst atEnd
      rw [rest.of_nil.1] at ends
      exact ends text rfl
  | @token line kind value text following pieces tokens warnings longest rest ih =>
    rw [List.append_assoc, newlines_append, ← Nat.add_assoc] at h'
    obtain ⟨body, last, joined, rfl, munches⟩ :=
      ih (fun text h => ends text (of_mem_getLast?_tail h)) h'
    rw [List.append_assoc]
    have stays : LongestLexeme (following ++ c :: back) _ text :=
      longest.append_blank blank fun atEnd => by
        subst atEnd
        rw [rest.of_nil.1] at ends
        exact ⟨longest.lexeme.not_blanks, ends text rfl⟩
    exact ⟨_ :: body, last, _, rfl, .token stays munches⟩
  | @stray line d following pieces tokens warnings stray rest ih =>
    rw [List.cons_append, ← List.singleton_append, newlines_append, ← Nat.add_assoc] at h'
    obtain ⟨body, last, joined, rfl, munches⟩ :=
      ih (fun text h => ends text (of_mem_getLast?_tail h)) h'
    exact ⟨body, last, _, rfl, .stray (stray.append_blank (List.cons_ne_nil d following) blank) munches⟩

/-- A source is scanned in parts. Of two sources with a blank between them, the tokens and
warnings are those of the first, without its end, and those of the second, as many lines
further down as there are newlines before it. The first must not end in the middle of
something that goes on over the blank. -/
theorem scanSource_append_blank (front back : String) (c : Char) (blank : isBlank c = true)
    (ends : ∀ piece ∈ (AtomFrontEnd.pieces front.toList).getLast?, ¬ GoesOn c piece.text) :
    let n := newlines (front.toList ++ [c])
    let joined := scanSource (front ++ String.singleton c ++ back)
    joined.tokens =
        (scanSource front).tokens.pop ++ (scanSource back).tokens.map (Token.lowered n) ∧
      joined.warnings =
        (scanSource front).warnings ++ (scanSource back).warnings.map (Warning.lowered n) := by
  intro n joined
  have ends' : ∀ text ∈ ((AtomFrontEnd.pieces front.toList).map Piece.text).getLast?,
      ¬ GoesOn c text := by
    intro text h
    rw [List.getLast?_map] at h
    obtain ⟨piece, last, rfl⟩ := Option.map_eq_some_iff.mp h
    exact ends piece last
  have lowered := (munches_scanSource back).lowered n
  rw [Nat.add_comm] at lowered
  obtain ⟨body, last, _, e, munches⟩ := (munches_scanSource front).append_blank blank ends' lowered
  have whole : (front ++ String.singleton c ++ back).toList = front.toList ++ c :: back.toList := by
    simp
  have scanned := munches_scanSource (front ++ String.singleton c ++ back)
  rw [whole] at scanned
  obtain ⟨-, ht, hw⟩ := munches.unique scanned
  refine ⟨Array.toList_inj.mp ?_, Array.toList_inj.mp ?_⟩
  · rw [ht, Array.toList_append, Array.toList_pop, Array.toList_map, e, List.dropLast_concat]
  · rw [hw, Array.toList_append, Array.toList_map]

/-- A quote in a comment closes no literal on the next line, and slashes in a literal begin
no comment. -/
theorem scanSource_append_blank_newline :
    isBlank '\n' = true ∧
      (∀ piece ∈ (AtomFrontEnd.pieces "1.//'".toList).getLast?, ¬ GoesOn '\n' piece.text) ∧
      (scanSource ("1.//'" ++ String.singleton '\n' ++ "5'//'")).tokens =
        #[⟨.literal .real, "1.", 1⟩, ⟨.literal .integer, "5", 2⟩, ⟨.literal .character, "//", 2⟩,
          .endAt 2] ∧
      (scanSource ("1.//'" ++ String.singleton '\n' ++ "5'//'")).warnings = #[] := by
  have ends : ∀ piece ∈ (AtomFrontEnd.pieces "1.//'".toList).getLast?,
      ¬ GoesOn '\n' piece.text := by
    have last : (AtomFrontEnd.pieces "1.//'".toList).getLast? =
        some ⟨.lineComment, ['/', '/', '\'']⟩ := by decide +kernel
    rw [last]
    rintro _ ⟨⟩ goesOn
    cases goesOn with
    | @literal l _ _ quoted => cases l <;> cases quoted
    | lineComment _ other => exact other rfl
  have blank : isBlank '\n' = true := rfl
  have before : scanSource "1.//'" = ⟨#[⟨.literal .real, "1.", 1⟩, .endAt 1], #[]⟩ := by decide +kernel
  have after : scanSource "5'//'" =
      ⟨#[⟨.literal .integer, "5", 1⟩, ⟨.literal .character, "//", 1⟩, .endAt 1], #[]⟩ := by decide +kernel
  obtain ⟨tokens, warnings⟩ := scanSource_append_blank "1.//'" "5'//'" '\n' blank ends
  rw [before, after] at tokens warnings
  refine ⟨blank, ends, ?_, by simpa using warnings⟩
  simpa [Token.lowered, Token.endAt, newlines] using tokens

end AtomFrontEnd

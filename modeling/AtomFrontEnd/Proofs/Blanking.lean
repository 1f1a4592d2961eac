import AtomFrontEnd.Proofs.Composition
import Mathlib.Data.List.Infix

/-!
What is skipped acts as blank space.

`blankSource` writes a space for each stray character, and for each character of a comment
that is not a newline. The pieces that are left then stand between blanks where they stood
between skipped text, and may do so in longer stretches. Why none of them reads on: a source
and what is made of it agree up to the first skipped piece, where the one goes on with that
piece and the other with a blank (`Blanked.exists_shared`). A token that is the longest piece
of the source is so too where the source is cut short there (`LongestLexeme.of_append`), and
so it is with the blank after it (`LongestLexeme.append_blank`). What stands for skipped text
is blank and has the same newlines, so it gives no token and moves none to another line.
-/

namespace AtomFrontEnd

open Text

/-! ## Blanking -/

/-- A space, but newlines stay. -/
def blankChar (c : Char) : Char := if c = '\n' then c else ' '

/-- The text of a piece, or blanks in its place if it is skipped. -/
def Piece.blanked (piece : Piece) : List Char :=
  match piece.shape with
  | .token _ => piece.text
  | .blank => piece.text
  | .lineComment => piece.text.map blankChar
  | .blockComment => piece.text.map blankChar
  | .stray _ => [' ']

/-- The text with spaces for its stray characters and for what its comments hold, newlines
apart. -/
def blankSkipped (source : List Char) : List Char := (pieces source).flatMap Piece.blanked

/-- The source with spaces for all that is skipped in it. -/
def blankSource (source : String) : String := String.ofList (blankSkipped source.toList)

variable {text following value source blanked back : List Char} {c : Char} {kind : TokenKind}
  {sense : Option (TokenKind × List Char)} {line : Nat} {pieces : List (List Char)}
  {tokens : List Token} {warnings : List Warning}

theorem isBlank_blankChar (c : Char) : isBlank (blankChar c) = true := by
  unfold blankChar
  split
  · rename_i newline
    rw [newline]
    rfl
  · rfl

theorem isBlank_of_mem_map_blankChar (text : List Char) :
    ∀ c ∈ text.map blankChar, isBlank c = true := by
  intro c mem
  obtain ⟨d, -, rfl⟩ := List.mem_map.mp mem
  exact isBlank_blankChar d

theorem newlines_map_blankChar (text : List Char) :
    newlines (text.map blankChar) = newlines text := by
  induction text with
  | nil => rfl
  | cons c text ih =>
    have same : newlines [blankChar c] = newlines [c] := by
      unfold blankChar
      by_cases newline : c = '\n'
      · rw [if_pos newline]
      · rw [if_neg newline]
        simp [newlines, newline]
    calc newlines ((c :: text).map blankChar)
        = newlines [blankChar c] + newlines (text.map blankChar) := newlines_append [_] _
      _ = newlines [c] + newlines text := by rw [same, ih]
      _ = newlines (c :: text) := (newlines_append [c] text).symm

theorem Stray.isBlank_eq_false (stray : Stray (c :: following)) : isBlank c = false := by
  refine Bool.eq_false_iff.mpr fun blank => ?_
  have single : Lexeme following none [c] := .blank (List.cons_ne_nil c []) (by simpa using blank)
  exact stray _ _ _ single rfl

theorem Stray.newlines_eq (stray : Stray (c :: following)) : newlines [c] = newlines [' '] := by
  have other : c ≠ '\n' := by
    rintro rfl
    exact absurd stray.isBlank_eq_false (by decide)
  simp [newlines, other]

/-! ## Sources and what is made of them -/

/-- The second text is the first, piece by piece, with blanks for what is skipped. -/
inductive Blanked : (source blanked : List Char) → Prop where
  | done : Blanked [] []
  | token {t : TokenKind × List Char} {text following blanked : List Char} :
    LongestLexeme following (some t) text → Blanked following blanked →
    Blanked (text ++ following) (text ++ blanked)
  | skipped {text following blanks blanked : List Char} :
    LongestLexeme following none text → blanks ≠ [] → (∀ c ∈ blanks, isBlank c = true) →
    newlines blanks = newlines text → Blanked following blanked →
    Blanked (text ++ following) (blanks ++ blanked)
  | stray {c : Char} {following blanked : List Char} :
    Stray (c :: following) → Blanked following blanked → Blanked (c :: following) (' ' :: blanked)

theorem isBlank_of_longestPiece {rest : List Char} {n : Nat}
    (h : longestPiece c rest = (.blank, n)) : isBlank c = true := by
  rw [longestPiece_eq] at h
  have holds := holds_front c
  generalize front c = first at h holds
  cases first with
  | blank => exact holds
  | slash =>
    simp only [Front.longestPiece, slashPiece] at h
    split at h <;> cases h
  | quote l => cases h
  | digit => cases h
  | letter => cases h
  | mark =>
    simp only [Front.longestPiece, markPiece] at h
    split at h <;> cases h

theorem Piece.blanked_of_skipped {shape : Shape} {rest : List Char} {n : Nat}
    (e : longestPiece c rest = (shape, n)) (longest : LongestLexeme following none (c :: text))
    (skipped : shape = .blank ∨ shape = .lineComment ∨ shape = .blockComment) :
    (∀ d ∈ Piece.blanked ⟨shape, c :: text⟩, isBlank d = true) ∧
      Piece.blanked ⟨shape, c :: text⟩ ≠ [] ∧
      newlines (Piece.blanked ⟨shape, c :: text⟩) = newlines (c :: text) := by
  rcases skipped with rfl | comment
  · have blank := isBlank_of_longestPiece e
    have allowed := longest.lexeme
    rw [lexeme_cons_iff, front_of_isBlank blank] at allowed
    exact ⟨List.forall_mem_cons.mpr ⟨blank, allowed.2⟩, List.cons_ne_nil c text, rfl⟩
  · have comment : Piece.blanked ⟨shape, c :: text⟩ = (c :: text).map blankChar := by
      rcases comment with rfl | rfl <;> rfl
    rw [comment]
    exact ⟨isBlank_of_mem_map_blankChar _, by simp, newlines_map_blankChar _⟩

/-- The pieces of a source, each with blanks in its place if it is skipped, are what is made
of the source. -/
theorem blanked_blankSkipped (source : List Char) : Blanked source (blankSkipped source) := by
  induction len : source.length using Nat.strongRecOn generalizing source with
  | _ n ih =>
    unfold blankSkipped
    cases source with
    | nil =>
      rw [pieces_nil]
      exact .done
    | cons c rest =>
      rw [pieces_cons, List.flatMap_cons]
      rcases longestPiece_spec c rest with ⟨e, stray⟩ | ⟨shape, text, following, e, cut, named, longest⟩
      · rw [e]
        have shorter : rest.length < n := by simp [← len]
        exact .stray stray (ih _ shorter rest rfl)
      · have shorter : following.length < n := by
          have pos := List.length_pos_iff.mpr longest.lexeme.ne_nil
          rw [← len, cut, List.length_append]
          omega
        have goesOn := ih _ shorter following rfl
        rw [e, cut, List.take_left, List.drop_left]
        obtain ⟨d, text, rfl⟩ := List.exists_cons_of_ne_nil longest.lexeme.ne_nil
        obtain ⟨rfl, -⟩ := List.cons.inj cut
        cases shape with
        | token kind => exact .token longest goesOn
        | stray d => exact absurd rfl (named d)
        | blank | lineComment | blockComment =>
          obtain ⟨blank, nonempty, same⟩ := Piece.blanked_of_skipped e longest (by simp)
          exact .skipped longest nonempty blank same goesOn

/-- A source and what is made of it agree up to some place. There both end, or the one goes
on with something and the other with a blank. -/
theorem Blanked.exists_shared (h : Blanked source blanked) :
    source = blanked ∨ ∃ front c back b back', source = front ++ c :: back ∧
      blanked = front ++ b :: back' ∧ isBlank b = true := by
  induction h with
  | done => exact .inl rfl
  | @token t text following blanked _ _ ih =>
    rcases ih with rfl | ⟨front, c, back, b, back', rfl, rfl, blank⟩
    · exact .inl rfl
    · exact .inr ⟨text ++ front, c, back, b, back', by simp, by simp, blank⟩
  | @skipped text following blanks blanked longest nonempty blank _ _ _ =>
    obtain ⟨c, text, rfl⟩ := List.exists_cons_of_ne_nil longest.lexeme.ne_nil
    obtain ⟨b, blanks, rfl⟩ := List.exists_cons_of_ne_nil nonempty
    exact .inr ⟨[], c, text ++ following, b, blanks ++ blanked, rfl, rfl, blank b List.mem_cons_self⟩
  | @stray c following blanked _ _ _ => exact .inr ⟨[], c, following, ' ', blanked, rfl, rfl, rfl⟩

/-! ## Sources cut short -/

/-- What the first closing mark closes is no shorter than a text without that mark. -/
theorem Closes.length_le {closing : List Char} (closed : Closes closing following value blanked)
    (absent : ¬ closing <:+: text) (e : text ++ back = blanked ++ following) :
    text.length ≤ blanked.length := by
  rcases closed with rfl | ⟨rfl, rfl⟩
  · rcases List.append_eq_append_iff.mp e with ⟨more, same, -⟩ | ⟨more, rfl, -⟩
    · rw [same, List.length_append]
      exact Nat.le_add_right ..
    · exact absurd ⟨value, more, rfl⟩ absent
  · rw [List.append_nil] at e
    rw [← e, List.length_append]
    exact Nat.le_add_right ..

/-- Where a comment or a literal has begun that nothing closes yet, there is a piece, and it
holds all of what has been seen of it. -/
theorem GoesOn.exists_lexeme_append (h : GoesOn c text) (back : List Char) :
    ∃ following sense whole, Lexeme following sense whole ∧ whole ++ following = text ++ back ∧
      text.length ≤ whole.length := by
  cases h with
  | @literal l quote text quoted inside =>
    obtain ⟨whole, following, value, e, absent, closed⟩ := exists_closes_quote quote (text ++ back)
    refine ⟨following, _, quote :: whole, .of_quoted quoted absent closed, by simp [e], ?_⟩
    have longer := closed.length_le (by simpa [List.singleton_infix_iff] using inside) e
    exact Nat.succ_le_succ longer
  | @blockComment text inside =>
    obtain ⟨whole, following, value, e, absent, closed⟩ := exists_closes_comment (text ++ back)
    have allowed : Front.slash.Allows '/' following none ('*' :: whole) :=
      .inr (.inr ⟨rfl, value, whole, rfl, absent, closed⟩)
    refine ⟨following, none, '/' :: '*' :: whole, lexeme_cons_iff.mpr allowed, by simp [e], ?_⟩
    have longer := closed.length_le inside e
    exact Nat.succ_le_succ (Nat.succ_le_succ longer)
  | @lineComment text inside _ =>
    obtain ⟨more, following, rfl, -, run, stop⟩ := exists_runLength (· != '\n') back
    have line : '\n' ∉ text ++ more := by
      rw [List.mem_append, not_or]
      exact ⟨inside, fun mem => by simpa using run _ mem⟩
    have ends : ∀ d ∈ following.head?, d = '\n' := by simpa using stop
    refine ⟨following, none, _, .lineComment line ends, by simp, ?_⟩
    simp

/-- A piece is one wherever the source goes on after it, unless it is not closed. -/
theorem Lexeme.append_or_goesOn (h : Lexeme following sense text) :
    (∀ back, Lexeme (following ++ back) sense text) ∨ GoesOn ' ' text := by
  cases h with
  | blank nonempty blank => exact .inl fun back => .blank nonempty blank
  | lineComment line ends =>
    cases following with
    | nil => exact .inr (.lineComment line (by decide))
    | cons d following => exact .inl fun back => .lineComment line ends
  | blockComment inside => exact .inl fun back => .blockComment inside
  | openComment inside => exact .inr (.blockComment inside)
  | token spelled => exact .inl fun back => .token spelled
  | openLiteral quoted inside => exact .inr (.literal quoted inside)

theorem LongestLexeme.of_append (longest : LongestLexeme (following ++ c :: back) sense text) :
    LongestLexeme following sense text := by
  refine ⟨longest.lexeme.of_append, fun {following' sense' text'} h e => ?_⟩
  rcases h.append_or_goesOn with wherever | goesOn
  · refine longest.longest (wherever (c :: back)) ?_
    rw [← List.append_assoc, e, List.append_assoc]
  · obtain ⟨following'', sense'', whole, h', e', longer⟩ :=
      goesOn.exists_lexeme_append (following' ++ c :: back)
    refine Nat.le_trans longer (longest.longest h' ?_)
    rw [e', ← List.append_assoc, e, List.append_assoc]

/-- A token that is the longest piece of a source is the longest where a blank comes in place
of what comes after it, at once or further on. -/
theorem LongestLexeme.before_blank {b : Char} {back' : List Char}
    (longest : LongestLexeme (following ++ c :: back) (some (kind, value)) text)
    (blank : isBlank b = true) :
    LongestLexeme (following ++ b :: back') (some (kind, value)) text := by
  refine longest.of_append.append_blank blank fun _ => ⟨longest.lexeme.not_blanks, ?_⟩
  exact longest.lexeme.not_goesOn (by simp)

/-! ## Scanning what is made of a source -/

theorem Blanked.exists_munches (h : Blanked source blanked)
    (munches : Munches line source pieces tokens warnings) :
    ∃ pieces', Munches line blanked pieces' tokens [] := by
  induction h generalizing line pieces tokens warnings with
  | done =>
    obtain ⟨-, rfl, -⟩ := munches.of_nil
    exact ⟨[], .done⟩
  | @token t text following blanked longest goesOn ih =>
    obtain ⟨pieces', tokens', rfl, rfl, rest⟩ := munches.of_longest longest
    obtain ⟨pieces'', rest'⟩ := ih rest
    have stays : LongestLexeme blanked (some t) text := by
      rcases goesOn.exists_shared with rfl | ⟨front, c, back, b, back', rfl, rfl, blank⟩
      · exact longest
      · exact longest.before_blank blank
    exact ⟨_, .token stays rest'⟩
  | @skipped text following blanks blanked longest nonempty blank same _ ih =>
    obtain ⟨pieces', tokens', rfl, rfl, rest⟩ := munches.of_longest longest
    obtain ⟨pieces'', rest'⟩ := ih rest
    rw [← same] at rest'
    exact rest'.blanks_append nonempty blank
  | @stray c following blanked stray _ ih =>
    obtain ⟨pieces', warnings', rfl, rfl, rest⟩ := munches.of_stray stray
    obtain ⟨pieces'', rest'⟩ := ih rest
    rw [stray.newlines_eq] at rest'
    exact rest'.blanks_append (List.cons_ne_nil ' ' []) (List.all_eq_true.mp rfl)

/-- Everything that is skipped acts as blank space. With spaces for the stray characters of
a source and for what its comments hold, newlines apart, the scan gives the same tokens, on
the same lines, and no warning. -/
theorem scanSource_blankSource (source : String) :
    (scanSource (blankSource source)).tokens = (scanSource source).tokens ∧
      (scanSource (blankSource source)).warnings = #[] := by
  have blanked := blanked_blankSkipped source.toList
  obtain ⟨pieces, munches⟩ := blanked.exists_munches (munches_scanSource source)
  have scanned := munches_scanSource (blankSource source)
  rw [blankSource, String.toList_ofList, ← blankSource] at scanned
  obtain ⟨-, tokens, warnings⟩ := munches.unique scanned
  exact ⟨Array.toList_inj.mp tokens, Array.toList_eq_nil_iff.mp warnings⟩

end AtomFrontEnd

import AtomFrontEnd.Proofs.Reach

/-!
The scanner is the maximal munch of the lexical grammar.

What `longestPiece` takes from the front of a text is a piece, and no piece there is
longer; where it finds a stray character there is none (`longestPiece_spec`). A text is
munched in one way (`Munches.unique`), since two longest pieces at one place have the
same length, and the text of a piece says what it is. So the scan of a source gives
the tokens and warnings of its munching, and no others (`munches_iff_scanSource`).
-/

namespace AtomFrontEnd

open Text

variable {c quote : Char} {l : Literal} {text following value : List Char}

/-! ## The first piece -/

/-- A slash begins a comment, or stands for itself. -/
def slashPiece : List Char → Shape × Nat
  | '/' :: rest => (.lineComment, 2 + runLength (· != '\n') rest)
  | '*' :: rest => (.blockComment, 2 + blockCommentLength 0 rest)
  | _ => (.token (.symbol .slash), 1)

/-- The longest symbol there is, or a stray character. -/
def markPiece (c : Char) (rest : List Char) : Shape × Nat :=
  match Symbol.ofStart? (c :: rest) with
  | some m => (.token (.symbol m), m.spelling.length)
  | none => (.stray c, 1)

/-- What a text begins with and how far that reaches, by the front of its first character. -/
def Front.longestPiece (c : Char) (rest : List Char) : Front → Shape × Nat
  | .blank => (.blank, 1 + runLength isBlank rest)
  | .slash => slashPiece rest
  | .quote l => (.token (.literal l), quotedLength c rest)
  | .digit => (.token (.literal (number (c :: rest)).1), (number (c :: rest)).2)
  | .letter => (.token (word (c :: rest)).1, (word (c :: rest)).2)
  | .mark => markPiece c rest

theorem longestPiece_slash (rest : List Char) : longestPiece '/' rest = slashPiece rest := by
  unfold slashPiece
  split
  · rfl
  · rfl
  · rename_i notLine notBlock
    have notLine : ¬ ('/' == '/' && rest.head? == some '/') = true := by
      cases rest with
      | nil => decide
      | cons d rest => simpa using fun e => notLine rest (by rw [e])
    have notBlock : ¬ ('/' == '/' && rest.head? == some '*') = true := by
      cases rest with
      | nil => decide
      | cons d rest => simpa using fun e => notBlock rest (by rw [e])
    rw [longestPiece, if_neg (by decide), if_neg notLine, if_neg notBlock]
    rfl

theorem longestPiece_eq (c : Char) (rest : List Char) :
    longestPiece c rest = (front c).longestPiece c rest := by
  by_cases slash : c = '/'
  · subst slash
    exact longestPiece_slash rest
  have noComment : ∀ d : Char, ¬ (c == '/' && rest.head? == some d) = true := by simp [slash]
  unfold longestPiece front
  by_cases blank : isBlank c = true
  · rw [if_pos blank, if_pos blank]
    rfl
  rw [if_neg blank, if_neg blank, if_neg (noComment _), if_neg (noComment _), if_neg slash]
  by_cases double : c = '"'
  · rw [if_pos double, if_pos (beq_iff_eq.mpr double)]
    rfl
  rw [if_neg double, if_neg (mt beq_iff_eq.mp double)]
  by_cases single : c = '\''
  · rw [if_pos single, if_pos (beq_iff_eq.mpr single)]
    rfl
  rw [if_neg single, if_neg (mt beq_iff_eq.mp single)]
  by_cases digit : c.isDigit = true
  · rw [if_pos digit, if_pos digit]
    rfl
  rw [if_neg digit, if_neg digit]
  by_cases letter : isWordStart c = true
  · rw [if_pos letter, if_pos letter]
    rfl
  rw [if_neg letter, if_neg letter]
  rfl

/-! ## It is a piece -/

/-- The token that a piece with the text is. -/
def Shape.sense (text : List Char) : Shape → Option (TokenKind × List Char)
  | .token kind => some (kind, kind.textOf text)
  | _ => none

theorem textOf_of_closes (quoted : l.quote? = some quote) (inside : quote ∉ value)
    (closed : Closes [quote] following value text) :
    (TokenKind.literal l).textOf (quote :: text) = value := by
  have run : ∀ c ∈ value, (c != quote) = true := fun c hc =>
    bne_iff_ne.mpr fun e => inside (e ▸ hc)
  have content : (TokenKind.literal l).textOf (quote :: text) = text.takeWhile (· != quote) := by
    cases l <;> first | rfl | cases quoted
  rw [content]
  rcases closed with rfl | ⟨rfl, rfl⟩
  · rw [List.takeWhile_append_of_pos run, List.takeWhile_cons_of_neg (by simp), List.append_nil]
  · exact List.takeWhile_eq_self_iff.mpr run

theorem textOf_of_not_quoted (h : l.quote? = none) : (TokenKind.literal l).textOf text = text := by
  cases l <;> first | rfl | cases h

theorem textOf_wordKind (cs : List Char) : (wordKind cs).textOf text = text := by
  unfold wordKind
  split <;> rfl

theorem exists_allows_slashPiece (rest : List Char) :
    ∃ text following, rest = text ++ following ∧ (slashPiece rest).2 = 1 + text.length ∧
      Front.slash.Allows '/' following ((slashPiece rest).1.sense ('/' :: text)) text := by
  unfold slashPiece
  split
  · rename_i rest
    obtain ⟨text, following, rfl, len, run, stop⟩ := exists_runLength (· != '\n') rest
    have line : '\n' ∉ text := fun h => by simpa using run _ h
    have ends : ∀ d ∈ following.head?, d = '\n' := by simpa using stop
    refine ⟨'/' :: text, following, rfl, ?_, .inr (.inl ⟨rfl, text, rfl, line, ends⟩)⟩
    simp only [len, List.length_cons]
    omega
  · rename_i rest
    obtain ⟨text, following, value, rfl, inside, closed⟩ := exists_closes_comment rest
    refine ⟨'*' :: text, following, rfl, ?_, .inr (.inr ⟨rfl, value, text, rfl, inside, closed⟩)⟩
    simp only [blockCommentLength_of_closes inside closed, List.length_cons]
    omega
  · exact ⟨[], rest, rfl, rfl, .inl ⟨rfl, rfl⟩⟩

theorem exists_allows_markPiece (c : Char) (rest : List Char) :
    markPiece c rest = (.stray c, 1) ∨
      ∃ text following, rest = text ++ following ∧ (markPiece c rest).2 = 1 + text.length ∧
        Front.mark.Allows c following ((markPiece c rest).1.sense (c :: text)) text := by
  unfold markPiece
  split
  · rename_i m found
    obtain ⟨following, e⟩ := Symbol.exists_of_ofStart? found
    obtain ⟨d, text, spelling⟩ :=
      List.exists_cons_of_ne_nil (List.ne_nil_of_length_pos m.spelling_pos)
    rw [spelling] at e
    cases e
    refine .inr ⟨text, following, rfl, ?_, m, rfl, spelling⟩
    rw [spelling, List.length_cons, Nat.add_comm]
  · exact .inl rfl

/-- What is taken first is a piece, if it is not a stray character. -/
theorem exists_lexeme_longestPiece (c : Char) (rest : List Char) :
    longestPiece c rest = (.stray c, 1) ∨
      ∃ text following, rest = text ++ following ∧
        (longestPiece c rest).2 = 1 + text.length ∧
        Lexeme following ((longestPiece c rest).1.sense (c :: text)) (c :: text) := by
  rw [longestPiece_eq]
  simp only [lexeme_cons_iff]
  have holds := holds_front c
  generalize front c = first at holds ⊢
  cases first with
  | blank =>
    obtain ⟨text, following, rfl, len, blank, -⟩ := exists_runLength isBlank rest
    exact .inr ⟨text, following, rfl, by rw [Front.longestPiece, len], rfl, blank⟩
  | slash =>
    cases holds
    exact .inr (exists_allows_slashPiece rest)
  | quote l =>
    obtain ⟨text, following, value, rfl, inside, closed⟩ := exists_closes_quote c rest
    refine .inr ⟨text, following, rfl, ?_, value, ?_, inside, closed⟩
    · rw [Front.longestPiece, quotedLength_of_closes inside closed, Nat.add_comm]
    · rw [Front.longestPiece, Shape.sense, textOf_of_closes holds inside closed]
  | digit =>
    obtain ⟨text, following, e, len, number⟩ := exists_number rest holds
    obtain ⟨d, text, rfl⟩ := List.exists_cons_of_ne_nil number.ne_nil
    cases e
    refine .inr ⟨text, following, rfl, ?_, _, ?_, number⟩
    · rw [Front.longestPiece, len, List.length_cons, Nat.add_comm]
    · rw [Front.longestPiece, Shape.sense, textOf_of_not_quoted number.quote?_eq_none]
  | letter =>
    obtain ⟨text, following, rfl, -, parts, stop⟩ := exists_runLength isWordPart rest
    rw [Front.longestPiece, word_eq holds parts stop]
    exact .inr ⟨text, following, rfl, rfl, by rw [Shape.sense, textOf_wordKind], parts⟩
  | mark => exact exists_allows_markPiece c rest

/-! ## No piece is longer -/

theorem Front.length_le_slashPiece {sense : Option (TokenKind × List Char)}
    (h : Front.slash.Allows c following sense text) :
    1 + text.length ≤ (slashPiece (text ++ following)).2 ∧
      ∀ d, (slashPiece (text ++ following)).1 ≠ .stray d := by
  rcases h with ⟨-, rfl⟩ | ⟨-, value, rfl, line, -⟩ | ⟨-, value, rest, rfl, inside, closed⟩
  · -- A slash alone is shorter than a comment.
    unfold slashPiece
    split
    · exact ⟨Nat.le_trans (by decide) (Nat.le_add_right 2 _), by simp⟩
    · exact ⟨Nat.le_trans (by decide) (Nat.le_add_right 2 _), by simp⟩
    · exact ⟨Nat.le_refl 1, by simp⟩
  · have ahead : ∀ d ∈ value, (d != '\n') = true := fun d hd =>
      bne_iff_ne.mpr fun e => line (e ▸ hd)
    have run := length_le_runLength following ahead
    refine ⟨?_, by simp [slashPiece]⟩
    simp only [List.cons_append, slashPiece, List.length_cons]
    omega
  · refine ⟨?_, by simp [slashPiece]⟩
    simp only [List.cons_append, slashPiece, List.length_cons,
      blockCommentLength_of_closes inside closed]
    omega

/-- No piece reaches further, and where there is one no character is stray. -/
theorem Lexeme.length_le_longestPiece {sense : Option (TokenKind × List Char)}
    (h : Lexeme following sense (c :: text)) :
    1 + text.length ≤ (longestPiece c (text ++ following)).2 ∧
      ∀ d, (longestPiece c (text ++ following)).1 ≠ .stray d := by
  rw [lexeme_cons_iff] at h
  rw [longestPiece_eq]
  have holds := holds_front c
  generalize front c = first at h holds ⊢
  cases first with
  | blank =>
    have run := length_le_runLength following h.2
    refine ⟨?_, by simp [Front.longestPiece]⟩
    simp only [Front.longestPiece]
    omega
  | slash => exact Front.length_le_slashPiece h
  | quote l =>
    obtain ⟨value, -, inside, closed⟩ := h
    refine ⟨?_, by simp [Front.longestPiece]⟩
    rw [Front.longestPiece, quotedLength_of_closes inside closed, Nat.add_comm]
  | digit =>
    obtain ⟨l, -, number⟩ := h
    have reach := number.length_le following
    rw [List.length_cons, Nat.add_comm] at reach
    exact ⟨reach, by simp [Front.longestPiece]⟩
  | letter =>
    have run := length_le_runLength following h.2
    refine ⟨?_, by simp [Front.longestPiece]⟩
    simp only [Front.longestPiece, word, runLength_cons _ (isWordPart_of_isWordStart holds)]
    omega
  | mark =>
    obtain ⟨m, -, spelling⟩ := h
    obtain ⟨m', found, longer⟩ := m.exists_ofStart?_append following
    rw [spelling, List.cons_append] at found
    rw [spelling, List.length_cons, Nat.add_comm] at longer
    simp only [Front.longestPiece, markPiece, found]
    exact ⟨longer, by simp⟩

/-- What is taken first is the longest piece, or a stray character where there is none. -/
theorem longestPiece_spec (c : Char) (rest : List Char) :
    (longestPiece c rest = (.stray c, 1) ∧ Stray (c :: rest)) ∨
      ∃ shape text following, longestPiece c rest = (shape, text.length) ∧
        c :: rest = text ++ following ∧ (∀ d, shape ≠ .stray d) ∧
        LongestLexeme following (shape.sense text) text := by
  have longest : ∀ {following sense text}, Lexeme following sense text →
      text ++ following = c :: rest → text.length ≤ (longestPiece c rest).2 ∧
        ∀ d, (longestPiece c rest).1 ≠ .stray d := by
    intro following sense text h e
    obtain ⟨d, text, rfl⟩ := List.exists_cons_of_ne_nil h.ne_nil
    cases e
    rw [List.length_cons, Nat.add_comm]
    exact h.length_le_longestPiece
  rcases exists_lexeme_longestPiece c rest with stray | ⟨text, following, rfl, len, lexeme⟩
  · exact .inl ⟨stray, fun _ _ _ h e => (longest h e).2 c (by rw [stray])⟩
  · rw [Nat.add_comm, ← List.length_cons (a := c)] at len
    refine .inr ⟨_, c :: text, following, Prod.ext rfl len, rfl, (longest lexeme rfl).2, lexeme,
      fun h e => ?_⟩
    rw [← len]
    exact (longest h e).1

/-! ## One way to munch -/

theorem LongestLexeme.unique {sense sense' : Option (TokenKind × List Char)}
    {following' text' : List Char} (h : LongestLexeme following sense text)
    (h' : LongestLexeme following' sense' text') (e : text ++ following = text' ++ following') :
    text = text' ∧ following = following' ∧ sense = sense' := by
  have len : text.length = text'.length :=
    Nat.le_antisymm (h'.longest h.lexeme e) (h.longest h'.lexeme e.symm)
  obtain ⟨rfl, rfl⟩ := List.append_inj e len
  exact ⟨rfl, rfl, h.lexeme.sense_unique h'.lexeme⟩

variable {line : Nat} {source : List Char} {pieces pieces' : List (List Char)}
  {tokens tokens' : List Token} {warnings warnings' : List Warning}

theorem Munches.of_nil (h : Munches line [] pieces tokens warnings) :
    pieces = [] ∧ tokens = [.endAt line] ∧ warnings = [] := by
  generalize e : [] = source at h
  cases h with
  | done => exact ⟨rfl, rfl, rfl⟩
  | skipped longest => exact absurd (List.append_eq_nil_iff.mp e.symm).1 longest.lexeme.ne_nil
  | token longest => exact absurd (List.append_eq_nil_iff.mp e.symm).1 longest.lexeme.ne_nil
  | stray => cases e

theorem Munches.of_longest {sense : Option (TokenKind × List Char)}
    (longest : LongestLexeme following sense text)
    (h : Munches line (text ++ following) pieces tokens warnings) :
    ∃ pieces' tokens', pieces = text :: pieces' ∧
      tokens = sense.elim tokens' (fun t => ⟨t.1, String.ofList t.2, line⟩ :: tokens') ∧
      Munches (line + newlines text) following pieces' tokens' warnings := by
  generalize e : text ++ following = source at h
  cases h with
  | done => exact absurd (List.append_eq_nil_iff.mp e).1 longest.lexeme.ne_nil
  | skipped longest' rest =>
    obtain ⟨rfl, rfl, rfl⟩ := longest.unique longest' e
    exact ⟨_, _, rfl, rfl, rest⟩
  | token longest' rest =>
    obtain ⟨rfl, rfl, rfl⟩ := longest.unique longest' e
    exact ⟨_, _, rfl, rfl, rest⟩
  | stray stray => exact absurd e (stray _ _ _ longest.lexeme)

theorem Munches.of_stray (stray : Stray (c :: following))
    (h : Munches line (c :: following) pieces tokens warnings) :
    ∃ pieces' warnings', pieces = [c] :: pieces' ∧ warnings = ⟨c, line⟩ :: warnings' ∧
      Munches (line + newlines [c]) following pieces' tokens warnings' := by
  generalize e : c :: following = source at h
  cases h with
  | done => cases e
  | skipped longest => exact absurd e.symm (stray _ _ _ longest.lexeme)
  | token longest => exact absurd e.symm (stray _ _ _ longest.lexeme)
  | stray _ rest =>
    cases e
    exact ⟨_, _, rfl, rfl, rest⟩

theorem Munches.unique (h : Munches line source pieces tokens warnings)
    (h' : Munches line source pieces' tokens' warnings') :
    pieces' = pieces ∧ tokens' = tokens ∧ warnings' = warnings := by
  induction h generalizing pieces' tokens' warnings' with
  | done => exact h'.of_nil
  | skipped longest _ ih =>
    obtain ⟨_, _, rfl, rfl, rest⟩ := h'.of_longest longest
    obtain ⟨rfl, rfl, rfl⟩ := ih rest
    exact ⟨rfl, rfl, rfl⟩
  | token longest _ ih =>
    obtain ⟨_, _, rfl, rfl, rest⟩ := h'.of_longest longest
    obtain ⟨rfl, rfl, rfl⟩ := ih rest
    exact ⟨rfl, rfl, rfl⟩
  | stray stray _ ih =>
    obtain ⟨_, _, rfl, rfl, rest⟩ := h'.of_stray stray
    obtain ⟨rfl, rfl, rfl⟩ := ih rest
    exact ⟨rfl, rfl, rfl⟩

/-! ## The scan munches -/

/-- What has been read, after all pieces of the source. -/
def Reading.addAll (r : Reading) (source : List Char) : Reading :=
  (AtomFrontEnd.pieces source).foldl Reading.add r

/-- The first piece is munched first, and what it adds is what it gives. -/
theorem exists_first_munched (c : Char) (rest : List Char) :
    ∃ shape text following, longestPiece c rest = (shape, text.length) ∧
      c :: rest = text ++ following ∧
      ∀ (r : Reading) {pieces tokens warnings},
        Munches (r.add ⟨shape, text⟩).line following pieces tokens warnings →
        ∃ tokens' warnings', Munches r.line (c :: rest) (text :: pieces) tokens' warnings' ∧
          (r.add ⟨shape, text⟩).tokens.toList ++ tokens = r.tokens.toList ++ tokens' ∧
          (r.add ⟨shape, text⟩).warnings.toList ++ warnings = r.warnings.toList ++ warnings' := by
  rcases longestPiece_spec c rest with ⟨e, stray⟩ | ⟨shape, text, following, e, cut, named, longest⟩
  · refine ⟨.stray c, [c], rest, e, rfl, fun r _ _ _ munches => ?_⟩
    exact ⟨_, _, .stray stray munches, rfl, by simp [Reading.add]⟩
  · refine ⟨shape, text, following, e, cut, fun r _ _ _ munches => ?_⟩
    rw [cut]
    cases shape with
    | token kind => exact ⟨_, _, .token longest munches, by simp [Reading.add], rfl⟩
    | stray d => exact absurd rfl (named d)
    | blank => exact ⟨_, _, .skipped longest munches, rfl, rfl⟩
    | lineComment => exact ⟨_, _, .skipped longest munches, rfl, rfl⟩
    | blockComment => exact ⟨_, _, .skipped longest munches, rfl, rfl⟩

theorem exists_munches (r : Reading) (source : List Char) :
    ∃ tokens warnings,
      Munches r.line source ((AtomFrontEnd.pieces source).map Piece.text) tokens warnings ∧
      (r.addAll source).tokens.toList ++ [.endAt (r.addAll source).line] =
        r.tokens.toList ++ tokens ∧
      (r.addAll source).warnings.toList = r.warnings.toList ++ warnings := by
  induction len : source.length using Nat.strongRecOn generalizing r source with
  | _ n ih =>
    unfold Reading.addAll
    cases source with
    | nil =>
      rw [pieces_nil]
      exact ⟨_, _, .done, rfl, (List.append_nil _).symm⟩
    | cons c rest =>
      obtain ⟨shape, text, following, e, cut, step⟩ := exists_first_munched c rest
      have pos := longestPiece_pos c rest
      have shorter : following.length < n := by
        rw [e] at pos
        rw [← len, cut, List.length_append]
        omega
      obtain ⟨tokens, warnings, munches, ht, hw⟩ :=
        ih following.length shorter (r.add ⟨shape, text⟩) following rfl
      obtain ⟨tokens', warnings', munches', ht', hw'⟩ := step r munches
      rw [pieces_cons, e, cut, List.take_left, List.drop_left, ← cut, List.map_cons,
        List.foldl_cons]
      exact ⟨tokens', warnings', munches', ht.trans ht', hw.trans hw'⟩

theorem munches_scanSource (source : String) :
    Munches 1 source.toList ((AtomFrontEnd.pieces source.toList).map Piece.text)
      (scanSource source).tokens.toList (scanSource source).warnings.toList := by
  obtain ⟨tokens, warnings, munches, ht, hw⟩ := exists_munches { line := 1 } source.toList
  have read : (piecesAfter #[] source.toList).foldl Reading.add { line := 1 } =
      Reading.addAll { line := 1 } source.toList := (Array.foldl_toList ..).symm
  simp only [scanSource, Lexer.scan, Lexer.ofSource, read, Array.toList_push, ht, hw]
  exact munches

/-- For every source, the scan is the maximal munch of the lexical grammar: the pieces,
put together, are the source, and there is no other way to munch it. -/
theorem munches_iff_scanSource (source : String) :
    ((AtomFrontEnd.pieces source.toList).map Piece.text).flatten = source.toList ∧
      ∀ pieces tokens warnings, Munches 1 source.toList pieces tokens warnings ↔
        pieces = (AtomFrontEnd.pieces source.toList).map Piece.text ∧
          tokens = (scanSource source).tokens.toList ∧
          warnings = (scanSource source).warnings.toList := by
  have scanned := munches_scanSource source
  refine ⟨flatten_pieces source.toList, fun pieces tokens warnings => ⟨scanned.unique, ?_⟩⟩
  rintro ⟨rfl, rfl, rfl⟩
  exact scanned

end AtomFrontEnd

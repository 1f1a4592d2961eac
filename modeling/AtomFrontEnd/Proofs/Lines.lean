import AtomFrontEnd.Proofs.Printing
import Mathlib.Data.List.Forall2
import Mathlib.Logic.Function.Iterate

/-!
The line of each token and of each warning.

Munching goes through a source from place to place, each with a part of the source before
it (`Passes`). Newlines may stand in blanks, in comments and in literals, but a piece is
passed as a whole, so that the line reached is always one more than the newlines before the
place (`Munches.exists_located`). This says where every token begins, for a token is munched
at each place where one is the longest piece, and at no other (`Located`).
-/

namespace AtomFrontEnd

/-! ## Places in a source -/

/-- What munching takes first from the front of `text ++ following`: the longest piece, or
one stray character. -/
inductive FirstMunched : (text following : List Char) → Prop where
  | lexeme {text following : List Char} {sense : Option (TokenKind × List Char)} :
    LongestLexeme following sense text → FirstMunched text following
  | stray {c : Char} {following : List Char} :
    Stray (c :: following) → FirstMunched [c] following

/-- Munching the source comes to a place with `before` behind it and `rest` ahead. -/
inductive Passes : (source before rest : List Char) → Prop where
  | here {source : List Char} : Passes source [] source
  | past {text following before rest : List Char} :
    FirstMunched text following → Passes following before rest →
    Passes (text ++ following) (text ++ before) rest

/-- The longest piece at the front of the text is a token of this kind and text. -/
def BeginsWithToken (t : Token) (rest : List Char) : Prop :=
  ∃ text following, rest = text ++ following ∧
    LongestLexeme following (some (t.kind, t.text.toList)) text

/-- The first character of the text begins no piece; it is the one that is warned of. -/
def BeginsWithStray (w : Warning) (rest : List Char) : Prop :=
  ∃ following, rest = w.char :: following ∧ Stray rest

/-- The item stands in the source after `before`, on the line that is `line` and as many more
as there are newlines before it. -/
def StandsAfter {α : Type} (begins : α → List Char → Prop) (lineOf : α → Nat) (line : Nat)
    (source before : List Char) (x : α) : Prop :=
  lineOf x = line + newlines before ∧ ∃ rest, Passes source before rest ∧ begins x rest

/-- The items are all that the source holds of their sort, in its order: one for each place
that munching comes to and that begins with one. -/
structure Located {α : Type} (begins : α → List Char → Prop) (lineOf : α → Nat) (line : Nat)
    (source : List Char) (places : List (List Char)) (items : List α) : Prop where
  increasing : places.Pairwise fun before before' => before.length < before'.length
  mem_iff : ∀ before, before ∈ places ↔ ∃ rest x, Passes source before rest ∧ begins x rest
  each : List.Forall₂ (StandsAfter begins lineOf line source) places items

variable {α : Type} {begins : α → List Char → Prop} {lineOf : α → Nat} {line : Nat}
  {source text following before rest : List Char} {places pieces : List (List Char)}
  {items : List α} {tokens : List Token} {warnings : List Warning} {x : α}

theorem FirstMunched.ne_nil (h : FirstMunched text following) : text ≠ [] := by
  cases h with
  | lexeme longest => exact longest.lexeme.ne_nil
  | stray => exact List.cons_ne_nil _ _

theorem FirstMunched.unique {text' following' : List Char} (h : FirstMunched text following)
    (h' : FirstMunched text' following') (e : text ++ following = text' ++ following') :
    text = text' ∧ following = following' := by
  cases h with
  | lexeme longest =>
    cases h' with
    | lexeme longest' =>
      obtain ⟨rfl, rfl, -⟩ := longest.unique longest' e
      exact ⟨rfl, rfl⟩
    | stray stray => exact absurd e (stray _ _ _ longest.lexeme)
  | stray stray =>
    cases h' with
    | lexeme longest' => exact absurd e.symm (stray _ _ _ longest'.lexeme)
    | stray =>
      obtain ⟨rfl, rfl⟩ := List.cons.inj e
      exact ⟨rfl, rfl⟩

/-- Munching is at the front, or it has taken the first piece and comes to the place in
what follows. -/
theorem passes_iff (first : FirstMunched text following) :
    Passes (text ++ following) before rest ↔
      (before = [] ∧ rest = text ++ following) ∨
        ∃ before', before = text ++ before' ∧ Passes following before' rest := by
  constructor
  · intro h
    generalize e : text ++ following = source at h
    cases h with
    | here => exact .inl ⟨rfl, rfl⟩
    | past first' passes =>
      obtain ⟨rfl, rfl⟩ := first.unique first' e
      exact .inr ⟨_, rfl, passes⟩
  · rintro (⟨rfl, rfl⟩ | ⟨before', rfl, passes⟩)
    · exact .here
    · exact .past first passes

theorem Passes.append_eq (h : Passes source before rest) : before ++ rest = source := by
  induction h with
  | here => rfl
  | past _ _ ih => rw [List.append_assoc, ih]

/-- What stands in the rest of a source stands in the whole of it, further on. -/
theorem StandsAfter.past (first : FirstMunched text following)
    (h : StandsAfter begins lineOf (line + newlines text) following before x) :
    StandsAfter begins lineOf line (text ++ following) (text ++ before) x := by
  obtain ⟨onLine, rest, passes, hx⟩ := h
  refine ⟨?_, rest, .past first passes, hx⟩
  rw [onLine, newlines_append, Nat.add_assoc]

/-! ## Lists of what is located -/

namespace Located

theorem nil (none : ∀ x, ¬ begins x []) : Located begins lineOf line [] [] [] where
  increasing := .nil
  mem_iff before := by
    refine iff_of_false List.not_mem_nil ?_
    rintro ⟨rest, x, passes, h⟩
    have atEnd := passes.append_eq
    rw [List.append_eq_nil_iff] at atEnd
    obtain ⟨rfl, rfl⟩ := atEnd
    exact none x h
  each := .nil

theorem increasing_past (h : Located begins lineOf line following places items)
    (text : List Char) : (places.map (text ++ ·)).Pairwise fun before before' =>
      before.length < before'.length := by
  rw [List.pairwise_map]
  refine h.increasing.imp fun less => ?_
  rw [List.length_append, List.length_append]
  exact Nat.add_lt_add_left less _

theorem each_past (first : FirstMunched text following)
    (h : Located begins lineOf (line + newlines text) following places items) :
    List.Forall₂ (StandsAfter begins lineOf line (text ++ following))
      (places.map (text ++ ·)) items := by
  rw [List.forall₂_map_left_iff]
  exact h.each.imp fun _ _ stands => stands.past first

theorem past (first : FirstMunched text following) (none : ∀ x, ¬ begins x (text ++ following))
    (h : Located begins lineOf (line + newlines text) following places items) :
    Located begins lineOf line (text ++ following) (places.map (text ++ ·)) items where
  increasing := h.increasing_past text
  mem_iff before := by
    simp only [passes_iff first, List.mem_map, h.mem_iff]
    constructor
    · rintro ⟨before', ⟨rest, x, passes, hx⟩, rfl⟩
      exact ⟨rest, x, .inr ⟨before', rfl, passes⟩, hx⟩
    · rintro ⟨rest, x, ⟨rfl, rfl⟩ | ⟨before', rfl, passes⟩, hx⟩
      · exact absurd hx (none x)
      · exact ⟨before', ⟨rest, x, passes, hx⟩, rfl⟩
  each := h.each_past first

theorem cons (first : FirstMunched text following) (here : begins x (text ++ following))
    (onLine : lineOf x = line)
    (h : Located begins lineOf (line + newlines text) following places items) :
    Located begins lineOf line (text ++ following) ([] :: places.map (text ++ ·)) (x :: items) where
  increasing := by
    refine List.pairwise_cons.mpr ⟨?_, h.increasing_past text⟩
    intro before hBefore
    obtain ⟨before', -, rfl⟩ := List.mem_map.mp hBefore
    rw [List.length_append]
    exact Nat.lt_add_right _ (List.length_pos_iff.mpr first.ne_nil)
  mem_iff before := by
    simp only [passes_iff first, List.mem_cons, List.mem_map, h.mem_iff]
    constructor
    · rintro (rfl | ⟨before', ⟨rest, x, passes, hx⟩, rfl⟩)
      · exact ⟨_, x, .inl ⟨rfl, rfl⟩, here⟩
      · exact ⟨rest, x, .inr ⟨before', rfl, passes⟩, hx⟩
    · rintro ⟨rest, x, ⟨rfl, rfl⟩ | ⟨before', rfl, passes⟩, hx⟩
      · exact .inl rfl
      · exact .inr ⟨before', ⟨rest, x, passes, hx⟩, rfl⟩
  each := .cons ⟨onLine, _, .here, here⟩ (h.each_past first)

end Located

/-! ## Munching keeps count of the newlines -/

theorem not_beginsWithToken_nil (t : Token) : ¬ BeginsWithToken t [] := by
  rintro ⟨text, following, e, longest⟩
  exact longest.lexeme.ne_nil (List.append_eq_nil_iff.mp e.symm).1

theorem not_beginsWithStray_nil (w : Warning) : ¬ BeginsWithStray w [] := by
  rintro ⟨following, e, -⟩
  cases e

theorem BeginsWithToken.sense_eq {sense : Option (TokenKind × List Char)} {t : Token}
    (h : BeginsWithToken t (text ++ following)) (longest : LongestLexeme following sense text) :
    sense = some (t.kind, t.text.toList) := by
  obtain ⟨text', following', e, longest'⟩ := h
  exact (longest.unique longest' e).2.2

theorem LongestLexeme.not_beginsWithStray {sense : Option (TokenKind × List Char)}
    (longest : LongestLexeme following sense text) (w : Warning) :
    ¬ BeginsWithStray w (text ++ following) := by
  rintro ⟨-, -, stray⟩
  exact stray _ _ _ longest.lexeme rfl

/-- What munching a source gives is all located in it, and the end is on the last line. -/
theorem Munches.exists_located (h : Munches line source pieces tokens warnings) :
    ∃ body places strays, tokens = body ++ [.endAt (line + newlines source)] ∧
      Located BeginsWithToken Token.line line source places body ∧
      Located BeginsWithStray Warning.line line source strays warnings := by
  induction h with
  | done => exact ⟨[], [], [], rfl, .nil not_beginsWithToken_nil, .nil not_beginsWithStray_nil⟩
  | @skipped line text following pieces tokens warnings longest _ ih =>
    obtain ⟨body, places, strays, rfl, located, warned⟩ := ih
    have noToken : ∀ t, ¬ BeginsWithToken t (text ++ following) := fun t begins =>
      absurd (begins.sense_eq longest) (by simp)
    refine ⟨body, _, _, ?_, located.past (.lexeme longest) noToken,
      warned.past (.lexeme longest) longest.not_beginsWithStray⟩
    rw [newlines_append, Nat.add_assoc]
  | @token line kind value text following pieces tokens warnings longest _ ih =>
    obtain ⟨body, places, strays, rfl, located, warned⟩ := ih
    have begins : BeginsWithToken ⟨kind, String.ofList value, line⟩ (text ++ following) := by
      refine ⟨text, following, rfl, ?_⟩
      rw [String.toList_ofList]
      exact longest
    refine ⟨_ :: body, _, _, ?_, located.cons (.lexeme longest) begins rfl,
      warned.past (.lexeme longest) longest.not_beginsWithStray⟩
    rw [List.cons_append, newlines_append, Nat.add_assoc]
  | @stray line c following pieces tokens warnings stray _ ih =>
    obtain ⟨body, places, strays, rfl, located, warned⟩ := ih
    have noToken : ∀ t, ¬ BeginsWithToken t ([c] ++ following) := by
      rintro t ⟨text, rest, e, longest⟩
      exact stray _ _ _ longest.lexeme e.symm
    have begins : BeginsWithStray ⟨c, line⟩ ([c] ++ following) := ⟨following, rfl, stray⟩
    refine ⟨body, _, _, ?_, located.past (.stray stray) noToken, warned.cons (.stray stray) begins rfl⟩
    rw [Nat.add_assoc, ← newlines_append, List.singleton_append]

theorem Munches.pairwise_line_le (h : Munches line source pieces tokens warnings) :
    (∀ t ∈ tokens, line ≤ t.line) ∧ tokens.Pairwise (·.line ≤ ·.line) := by
  induction h with
  | done => simp
  | skipped _ _ ih | stray _ _ ih =>
    exact ⟨fun t ht => Nat.le_trans (Nat.le_add_right ..) (ih.1 t ht), ih.2⟩
  | token _ _ ih =>
    have below := fun t ht => Nat.le_trans (Nat.le_add_right ..) (ih.1 t ht)
    exact ⟨List.forall_mem_cons.mpr ⟨Nat.le_refl _, below⟩, List.pairwise_cons.mpr ⟨below, ih.2⟩⟩

/-! ## Scans -/

theorem Lexer.scan_iterate (lexer : Lexer) (n : Nat) :
    ((fun l : Lexer => l.scan.2)^[n] lexer.scan.2).scan =
      (⟨#[.endAt lexer.scan.2.line], #[]⟩, lexer.scan.2) := by
  induction n with
  | zero => exact lexer.scan_scan
  | succ n ih =>
    rw [Function.iterate_succ_apply']
    have same := congrArg Prod.snd ih
    rw [same]
    exact lexer.scan_scan

/-- Each token but the last, and each warning, is on the line of its first character, one
more than there are newlines before it; there is one for each place of the source at which
munching comes to a token, or to a stray character, and they are in the order of these places.
The lines of the tokens never decrease. The end is the last token and no other is one; it is
on the last line, and however often the lexer scans again, that end is all it finds. -/
theorem scan_located (source : String) :
    let scanned : Scan × Lexer := (Lexer.ofSource source).scan
    let chars := source.toList
    let last := Token.endAt (1 + newlines chars)
    (∃ body, scanned.1.tokens.toList = body ++ [last] ∧ (∀ t ∈ body, t.kind ≠ .endOfInput) ∧
      ∃ places, Located BeginsWithToken Token.line 1 chars places body) ∧
    (∃ places, Located BeginsWithStray Warning.line 1 chars places scanned.1.warnings.toList) ∧
    scanned.1.tokens.toList.Pairwise (·.line ≤ ·.line) ∧
    ∀ n, ((fun lexer : Lexer => lexer.scan.2)^[n] scanned.2).scan.1 = ⟨#[last], #[]⟩ := by
  intro scanned chars last
  have munches := munches_scanSource source
  obtain ⟨body, places, strays, e, located, warned⟩ := munches.exists_located
  obtain ⟨body', line', e', wf⟩ := munches.exists_body
  obtain ⟨rfl, ends⟩ := List.append_inj' (e.symm.trans e') rfl
  refine ⟨⟨body, e, fun t ht => (wf t ht).ne_endOfInput, places, located⟩, ⟨strays, warned⟩,
    munches.pairwise_line_le.2, fun n => ?_⟩
  have onLine : Token.endAt scanned.2.line = last := by
    have atEnd := congrArg List.getLast? e
    simpa [scanned, scanSource, Lexer.scan] using atEnd
  rw [Lexer.scan_iterate, onLine]

end AtomFrontEnd

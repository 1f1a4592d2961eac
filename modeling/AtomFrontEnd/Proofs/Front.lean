import AtomFrontEnd.Proofs.Lexeme

/-!
What the first character of a piece decides.

No two classes of pieces share a first character, except that a slash begins the two
kinds of comments and is a symbol too. `front` names what a first character leaves
open, and `lexeme_cons_iff` lists, front by front, the pieces that begin so; what is
proved of all pieces goes through it. One thing is that the text of a piece says what
token it is, if it is one (`Lexeme.sense_unique`).
-/

namespace AtomFrontEnd

open Text

variable {following text value : List Char} {sense sense' : Option (TokenKind × List Char)}
  {kind : TokenKind} {l l' : Literal} {m m' : Symbol} {c quote : Char}

/-! ## How a piece begins -/

/-- What the first character of a piece says about it. -/
inductive Front where
  | blank
  | slash
  | quote (class_ : Literal)
  | digit
  | letter
  | mark
  deriving DecidableEq

/-- The front of the pieces that begin with the character. -/
def front (c : Char) : Front :=
  if isBlank c then .blank
  else if c = '/' then .slash
  else if c = '"' then .quote .string
  else if c = '\'' then .quote .character
  else if c.isDigit then .digit
  else if isWordStart c then .letter
  else .mark

/-- What the front says of the character. -/
def Front.Holds (c : Char) : Front → Prop
  | .blank => isBlank c = true
  | .slash => c = '/'
  | .quote l => l.quote? = some c
  | .digit => c.isDigit = true
  | .letter => isWordStart c = true
  | .mark => True

theorem holds_front (c : Char) : (front c).Holds c := by
  unfold front
  split
  · assumption
  split
  · assumption
  split
  · rename_i double
    subst double
    rfl
  split
  · rename_i single
    subst single
    rfl
  split
  · assumption
  split
  · assumption
  · trivial

theorem front_of_isBlank (h : isBlank c = true) : front c = .blank := if_pos h

theorem front_of_isDigit (h : c.isDigit = true) : front c = .digit := by
  have other : ∀ d : Char, d.isDigit = false → c ≠ d := by
    rintro d hd rfl
    simp [hd] at h
  rw [front, if_neg (not_isBlank_of_isWordPart (isWordPart_of_isDigit h)),
    if_neg (other '/' rfl), if_neg (other '"' rfl), if_neg (other '\'' rfl), if_pos h]

theorem front_of_isWordStart (h : isWordStart c = true) : front c = .letter := by
  have other : ∀ d : Char, isWordStart d = false → c ≠ d := by
    rintro d hd rfl
    simp [hd] at h
  have digit : ¬ c.isDigit = true := fun digit => by
    simp [isWordStart_eq_false_of_isDigit digit] at h
  rw [front, if_neg (not_isBlank_of_isWordPart (isWordPart_of_isWordStart h)),
    if_neg (other '/' rfl), if_neg (other '"' rfl), if_neg (other '\'' rfl), if_neg digit, if_pos h]

theorem front_of_quote (h : l.quote? = some quote) : front quote = .quote l := by
  cases l <;> cases h <;> rfl

theorem front_of_spelling (h : m.spelling = c :: text) :
    front c = if m = .slash then .slash else .mark := by
  cases m <;> cases h <;> rfl

/-! ## What each front allows -/

/-- The text is `value` and what closes it, or `value` alone, closed by the end. -/
def Closes (closing following value text : List Char) : Prop :=
  text = value ++ closing ∨ (text = value ∧ following = [])

/-- The pieces `c :: text` that begin as the front says. -/
def Front.Allows (c : Char) (following : List Char) (sense : Option (TokenKind × List Char))
    (text : List Char) : Front → Prop
  | .blank => sense = none ∧ ∀ d ∈ text, isBlank d = true
  | .slash =>
    (sense = some (.symbol .slash, [c]) ∧ text = []) ∨
      (sense = none ∧ ∃ value, text = '/' :: value ∧ '\n' ∉ value ∧
        ∀ d ∈ following.head?, d = '\n') ∨
      (sense = none ∧ ∃ value rest, text = '*' :: rest ∧ ¬ ['*', '/'] <:+: value ∧
        Closes ['*', '/'] following value rest)
  | .quote l =>
    ∃ value, sense = some (.literal l, value) ∧ c ∉ value ∧ Closes [c] following value text
  | .digit => ∃ l, sense = some (.literal l, c :: text) ∧ Number l (c :: text)
  | .letter => sense = some (wordKind (c :: text), c :: text) ∧ ∀ d ∈ text, isWordPart d = true
  | .mark => ∃ m : Symbol, sense = some (.symbol m, c :: text) ∧ m.spelling = c :: text

theorem Number.ne_nil (h : Number l text) : text ≠ [] := by
  cases h with
  | hexadecimal => simp
  | padded => simp
  | decimal hw => cases hw <;> simp

theorem Number.isDigit_head (h : Number l (c :: text)) : c.isDigit = true := by
  generalize e : c :: text = number at h
  cases h with
  | hexadecimal => cases e; rfl
  | padded => cases e; rfl
  | decimal hw =>
    cases hw with
    | zero => cases e; rfl
    | digits hd => cases e; exact hd

theorem Number.quote?_eq_none (h : Number l text) : l.quote? = none := by
  cases h with
  | hexadecimal => rfl
  | padded => rfl
  | decimal => split <;> rfl

theorem wordKind_spelling (w : Keyword) : wordKind w.spelling.toList = .keyword w := by
  rw [wordKind, String.ofList_toList, Keyword.ofSpelling?_spelling]

theorem wordKind_of_not_spelling (h : ∀ w : Keyword, w.spelling.toList ≠ text) :
    wordKind text = .identifier := by
  have unknown : Keyword.ofSpelling? (String.ofList text) = none := by
    refine List.find?_eq_none.mpr fun w _ same => h w ?_
    rw [eq_of_beq same, String.toList_ofList]
  rw [wordKind, unknown]

theorem Keyword.isWord_spelling (w : Keyword) :
    (∃ c text, w.spelling.toList = c :: text ∧ isWordStart c = true) ∧
      ∀ c ∈ w.spelling.toList, isWordPart c = true := by
  cases w <;> exact ⟨⟨_, _, rfl, rfl⟩, List.all_eq_true.mp rfl⟩

theorem Lexeme.ne_nil (h : Lexeme following sense text) : text ≠ [] := by
  cases h with
  | blank nonempty => exact nonempty
  | token spelled =>
    cases spelled with
    | keyword w =>
      obtain ⟨⟨c, text, e, _⟩, _⟩ := w.isWord_spelling
      simp [TokenKind.enclose, e]
    | identifier => simp [TokenKind.enclose]
    | number number =>
      rw [TokenKind.enclose, number.quote?_eq_none]
      exact number.ne_nil
    | quoted quoted => simp [TokenKind.enclose, quoted]
    | symbol m => exact List.ne_nil_of_length_pos m.spelling_pos
  | lineComment => simp
  | blockComment => simp
  | openComment => simp
  | openLiteral => simp

theorem Spelled.allows (h : Spelled kind value) (e : c :: text = kind.enclose value) :
    (front c).Allows c following (some (kind, value)) text := by
  cases h with
  | keyword w =>
    obtain ⟨⟨d, rest, spelling, start⟩, parts⟩ := w.isWord_spelling
    have e : c :: text = w.spelling.toList := e
    rw [spelling] at e
    cases e
    rw [front_of_isWordStart start]
    exact ⟨by rw [← spelling, wordKind_spelling], fun d hd => parts d (by simp [spelling, hd])⟩
  | identifier start parts reserved =>
    cases e
    rw [front_of_isWordStart start]
    exact ⟨by rw [wordKind_of_not_spelling reserved], parts⟩
  | @number l _ number =>
    rw [TokenKind.enclose, number.quote?_eq_none] at e
    cases e
    rw [front_of_isDigit number.isDigit_head]
    exact ⟨l, rfl, number⟩
  | quoted quoted inside =>
    rw [TokenKind.enclose, quoted] at e
    cases e
    rw [front_of_quote quoted]
    exact ⟨value, rfl, inside, .inl rfl⟩
  | symbol m =>
    rw [front_of_spelling e.symm]
    split
    · rename_i slash
      subst slash
      cases e
      exact .inl ⟨rfl, rfl⟩
    · exact ⟨m, by rw [e]; rfl, e.symm⟩

theorem Spelled.of_wordKind (start : isWordStart c = true)
    (parts : ∀ d ∈ text, isWordPart d = true) : Spelled (wordKind (c :: text)) (c :: text) := by
  by_cases reserved : ∃ w : Keyword, w.spelling.toList = c :: text
  · obtain ⟨w, spelling⟩ := reserved
    rw [← spelling, wordKind_spelling]
    exact .keyword w
  · have reserved : ∀ w : Keyword, w.spelling.toList ≠ c :: text := fun w e => reserved ⟨w, e⟩
    rw [wordKind_of_not_spelling reserved]
    exact .identifier start parts reserved

theorem enclose_wordKind (text value : List Char) : (wordKind text).enclose value = value := by
  unfold wordKind
  split <;> rfl

theorem Lexeme.of_quoted (quoted : l.quote? = some c) (inside : c ∉ value)
    (closed : Closes [c] following value text) :
    Lexeme following (some (.literal l, value)) (c :: text) := by
  rcases closed with rfl | ⟨rfl, rfl⟩
  · have token : Lexeme following _ _ := .token (.quoted quoted inside)
    rwa [TokenKind.enclose, quoted] at token
  · exact .openLiteral quoted inside

/-- The pieces that begin with a character are those that its front allows. -/
theorem lexeme_cons_iff :
    Lexeme following sense (c :: text) ↔ (front c).Allows c following sense text := by
  constructor
  · intro h
    generalize e : c :: text = whole at h
    cases h with
    | blank _ blank =>
      subst e
      rw [front_of_isBlank (blank c List.mem_cons_self)]
      exact ⟨rfl, fun d hd => blank d (List.mem_cons_of_mem c hd)⟩
    | lineComment line ends =>
      cases e
      exact .inr (.inl ⟨rfl, _, rfl, line, ends⟩)
    | blockComment inside =>
      cases e
      exact .inr (.inr ⟨rfl, _, _, rfl, inside, .inl rfl⟩)
    | openComment inside =>
      cases e
      exact .inr (.inr ⟨rfl, _, _, rfl, inside, .inr ⟨rfl, rfl⟩⟩)
    | token spelled => exact spelled.allows e
    | openLiteral quoted inside =>
      cases e
      rw [front_of_quote quoted]
      exact ⟨_, rfl, inside, .inr ⟨rfl, rfl⟩⟩
  · intro h
    have holds := holds_front c
    generalize front c = first at h holds
    cases first with
    | blank =>
      obtain ⟨rfl, rest⟩ := h
      exact .blank (List.cons_ne_nil c text) (List.forall_mem_cons.mpr ⟨holds, rest⟩)
    | slash =>
      cases holds
      rcases h with ⟨rfl, rfl⟩ | ⟨rfl, value, rfl, line, ends⟩ |
        ⟨rfl, value, rest, rfl, inside, closed⟩
      · exact .token (.symbol .slash)
      · exact .lineComment line ends
      · rcases closed with rfl | ⟨rfl, rfl⟩
        · exact .blockComment inside
        · exact .openComment inside
    | quote l =>
      obtain ⟨value, rfl, inside, closed⟩ := h
      exact .of_quoted holds inside closed
    | digit =>
      obtain ⟨l, rfl, number⟩ := h
      have token : Lexeme following _ _ := .token (.number number)
      rwa [TokenKind.enclose, number.quote?_eq_none] at token
    | letter =>
      obtain ⟨rfl, parts⟩ := h
      have token : Lexeme following _ _ := .token (.of_wordKind holds parts)
      rwa [enclose_wordKind] at token
    | mark =>
      obtain ⟨m, rfl, spelling⟩ := h
      rw [← spelling]
      exact .token (.symbol m)

/-! ## What a piece is, its text says -/

theorem digits_of_whole (h : Whole text) : Digits text := by
  cases h with
  | zero => simp [Digits]
  | digits hd _ rest => exact List.forall_mem_cons.mpr ⟨hd, rest⟩

theorem exists_mark_of_ne_nil {fraction exponent : List Char} (hf : Fraction fraction)
    (he : Exponent exponent) (nonempty : fraction ++ exponent ≠ []) :
    ∃ m text, fraction ++ exponent = m :: text ∧ m ∈ ['.', 'e', 'E'] := by
  cases hf with
  | point => exact ⟨'.', _, rfl, by simp⟩
  | none =>
    cases he with
    | none => exact absurd rfl nonempty
    | mark hm => exact ⟨_, _, rfl, List.mem_cons_of_mem _ hm⟩

/-- A number is an integer if it is of base sixteen or has digits only. -/
theorem Number.eq_integer_iff (h : Number l text) :
    l = .integer ↔ (∃ m rest, text = '0' :: m :: rest ∧ m ∈ ['x', 'X']) ∨ Digits text := by
  cases h with
  | hexadecimal hm => exact iff_of_true rfl (.inl ⟨_, _, rfl, hm⟩)
  | padded _ digits => exact iff_of_true rfl (.inr (List.forall_mem_cons.mpr ⟨rfl, digits⟩))
  | @decimal whole fraction exponent hw hf he =>
    split
    · rename_i empty
      refine iff_of_true rfl (.inr ?_)
      rw [empty, List.append_nil]
      exact digits_of_whole hw
    · rename_i nonempty
      obtain ⟨m, text, e, hm⟩ := exists_mark_of_ne_nil hf he nonempty
      refine iff_of_false (by simp) ?_
      rw [e]
      rintro (⟨d, rest, same, hd⟩ | digits)
      · cases hw with
        | zero =>
          cases same
          revert hm hd
          simp only [List.mem_cons, List.not_mem_nil, or_false]
          rintro (rfl | rfl | rfl) (e | e) <;> cases e
        | digits _ nonzero => exact nonzero (List.cons.inj same).1
      · have digit := digits m (by simp)
        simp only [List.mem_cons, List.not_mem_nil, or_false] at hm
        rcases hm with rfl | rfl | rfl <;> cases digit

theorem Number.literal_unique (h : Number l text) (h' : Number l' text) : l = l' := by
  have two : ∀ {l}, Number l text → l = .integer ∨ l = .real := by
    intro l h
    cases h with
    | hexadecimal => exact .inl rfl
    | padded => exact .inl rfl
    | decimal => split <;> simp
  have same : l = .integer ↔ l' = .integer := h.eq_integer_iff.trans h'.eq_integer_iff.symm
  rcases two h with rfl | rfl <;> rcases two h' with rfl | rfl <;> simp_all

theorem Symbol.ofStart?_spelling (m : Symbol) : Symbol.ofStart? m.spelling = some m := by
  cases m <;> rfl

theorem Symbol.spelling_injective (h : m.spelling = m'.spelling) : m = m' := by
  have same := congrArg Symbol.ofStart? h
  rwa [ofStart?_spelling, ofStart?_spelling, Option.some.injEq] at same

theorem Lexeme.sense_unique (h : Lexeme following sense text) (h' : Lexeme following sense' text) :
    sense = sense' := by
  obtain ⟨c, text, rfl⟩ := List.exists_cons_of_ne_nil h.ne_nil
  rw [lexeme_cons_iff] at h h'
  generalize front c = first at h h'
  cases first with
  | blank => exact h.1.trans h'.1.symm
  | slash =>
    rcases h with ⟨rfl, rfl⟩ | ⟨rfl, _, rfl, _⟩ | ⟨rfl, _, _, rfl, _⟩ <;>
      rcases h' with ⟨rfl, e⟩ | ⟨rfl, _, e, _⟩ | ⟨rfl, _, _, e, _⟩ <;>
        first | rfl | cases e
  | quote l =>
    obtain ⟨value, rfl, inside, closed⟩ := h
    obtain ⟨value', rfl, inside', closed'⟩ := h'
    rcases closed with rfl | ⟨rfl, rfl⟩ <;> rcases closed' with e | ⟨e, _⟩
    · rw [List.append_cancel_right e]
    · exact absurd (e ▸ List.mem_append_right value List.mem_cons_self) inside'
    · exact absurd (e ▸ List.mem_append_right value' List.mem_cons_self) inside
    · rw [e]
  | digit =>
    obtain ⟨l, rfl, number⟩ := h
    obtain ⟨l', rfl, number'⟩ := h'
    rw [number.literal_unique number']
  | letter => exact h.1.trans h'.1.symm
  | mark =>
    obtain ⟨m, rfl, spelling⟩ := h
    obtain ⟨m', rfl, spelling'⟩ := h'
    rw [Symbol.spelling_injective (spelling.trans spelling'.symm)]

end AtomFrontEnd

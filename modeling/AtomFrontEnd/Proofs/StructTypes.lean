import AtomFrontEnd.Proofs.Viability

/-!
`struct` with a name is one more word for a type.

Where it is a type, it can be read as the word `int`: `eraseStructTypes` writes
`int` for every `struct` with a name, unless a brace follows, which makes it the
beginning of a definition. The tokens are then a unit without such types if and only
if they were one with them. From left to right a type must be told from a definition
by what follows it, so `Derives.erase` is about a phrase and what comes after; the
grammar never has a brace after a type (`spaced_grammar`). From right to left it is
enough that an `int` is nothing but a type (`Derives.respell`).
-/

namespace AtomFrontEnd

/-- Tokens with `int` for each `struct` with a name that no brace follows. -/
def eraseStructTypes : List Token → List Token
  | [] => []
  | [t] => [t]
  | first :: second :: rest =>
    if first.kind = .keyword .kwStruct ∧ second.kind = .identifier ∧
        rest.head?.map Token.kind ≠ some (.symbol .leftBrace) then
      ⟨.keyword .kwInt, Keyword.kwInt.spelling, first.line⟩ :: eraseStructTypes rest
    else first :: eraseStructTypes (second :: rest)

/-- The same, of kinds alone. -/
def eraseStructKinds : List TokenKind → List TokenKind
  | [] => []
  | [kind] => [kind]
  | first :: second :: rest =>
    if first = .keyword .kwStruct ∧ second = .identifier ∧
        rest.head? ≠ some (.symbol .leftBrace) then
      .keyword .kwInt :: eraseStructKinds rest
    else first :: eraseStructKinds (second :: rest)

variable {f g : Form} {u v w rest : List TokenKind} {kind : TokenKind}

theorem map_kind_eraseStructTypes (ts : List Token) :
    (eraseStructTypes ts).map Token.kind = eraseStructKinds (ts.map Token.kind) := by
  fun_induction eraseStructTypes ts with
  | case1 => rfl
  | case2 t => rfl
  | case3 first second rest isType ih =>
    rw [← List.head?_map] at isType
    simp only [List.map_cons, eraseStructKinds, if_pos isType, ih]
  | case4 first second rest notType ih =>
    rw [← List.head?_map] at notType
    simp only [List.map_cons, eraseStructKinds, if_neg notType] at ih ⊢
    rw [ih]

theorem eraseStructKinds_cons
    (notType : kind = .keyword .kwStruct → ∀ tail, rest = .identifier :: tail →
      tail.head? = some (.symbol .leftBrace)) :
    eraseStructKinds (kind :: rest) = kind :: eraseStructKinds rest := by
  cases rest with
  | nil => rfl
  | cons second tail =>
    rw [eraseStructKinds, if_neg]
    rintro ⟨isStruct, rfl, notBrace⟩
    exact notBrace (notType isStruct tail rfl)

theorem eraseStructKinds_type (notBrace : rest.head? ≠ some (.symbol .leftBrace)) :
    eraseStructKinds (.keyword .kwStruct :: .identifier :: rest) =
      .keyword .kwInt :: eraseStructKinds rest := by
  rw [eraseStructKinds, if_pos ⟨rfl, rfl, notBrace⟩]

/-- What stands after the first end token plays no part in what is erased before it. -/
theorem eraseStructKinds_takeWhile (w : List TokenKind) :
    eraseStructKinds (w.takeWhile (· != .endOfInput) ++ [.endOfInput]) =
      (eraseStructKinds w).takeWhile (· != .endOfInput) ++ [.endOfInput] := by
  have brace : ∀ v : List TokenKind,
      (v.takeWhile (· != TokenKind.endOfInput) ++ [TokenKind.endOfInput]).head? =
        some (.symbol .leftBrace) ↔ v.head? = some (.symbol .leftBrace) := by
    intro v
    cases v with
    | nil => simp
    | cons kind v => by_cases isEnd : kind = .endOfInput <;> simp [isEnd]
  fun_induction eraseStructKinds w with
  | case1 => rfl
  | case2 kind => by_cases isEnd : kind = .endOfInput <;> simp [isEnd, eraseStructKinds]
  | case3 first second rest isType ih =>
    obtain ⟨rfl, rfl, notBrace⟩ := isType
    have e := eraseStructKinds_type (mt (brace rest).mp notBrace)
    rw [ih] at e
    simpa using e
  | case4 first second rest notType ih =>
    by_cases isEnd : first = .endOfInput
    · simp [isEnd, eraseStructKinds]
    have first_eq : ∀ v, (first :: v).takeWhile (· != .endOfInput) =
        first :: v.takeWhile (· != .endOfInput) := by
      intro v
      rw [List.takeWhile_cons_of_pos (by simpa using isEnd)]
    rw [first_eq, first_eq, List.cons_append, List.cons_append, eraseStructKinds_cons, ih]
    intro isStruct tail e
    by_cases isEnd' : second = .endOfInput
    · subst isEnd'
      cases e
    · rw [List.takeWhile_cons_of_pos (by simpa using isEnd')] at e
      obtain ⟨rfl, rfl⟩ := List.cons.inj e
      refine (brace rest).mpr ?_
      simpa [isStruct] using notType

/-! ## With types erased it is a phrase of the narrower grammar -/

namespace Form

def isStruct (f : Form) : Bool := f == keyword .kwStruct

/-- Whether a sequence of the form may end in a type. -/
def endsInType : Form → Bool
  | empty => false
  | token _ => false
  | phrase p => p == .typeSpec
  | next f g => g.endsInType || g.nullable && f.endsInType
  | either f g => f.endsInType || g.endsInType
  | many f => f.endsInType

/-- Whether the form begins with a name and a brace. -/
def isDefinition : Form → Bool
  | next (token .identifier) (next (token (.symbol .leftBrace)) _) => true
  | _ => false

/-- Whether in the form each `struct` has a name and a brace after it, and no type
has a brace after it. -/
def spaced : Form → Bool
  | next f g =>
    f.spaced && g.spaced && !g.isStruct && (!f.isStruct || g.isDefinition) &&
      (!f.endsInType || !g.nullable && !(g.openers true).contains (.symbol .leftBrace))
  | either f g => f.spaced && g.spaced && !f.isStruct && !g.isStruct
  | many f => f.spaced && !f.isStruct && !f.endsInType
  | _ => true

/-- What may follow a sequence of the form: a name and a brace a bare `struct`, and no
brace a type. -/
structure Precedes (f : Form) (rest : List TokenKind) : Prop where
  definition : f.isStruct = true → ∃ tail, rest = .identifier :: .symbol .leftBrace :: tail
  type : f.endsInType = true → rest.head? ≠ some (.symbol .leftBrace)

end Form

theorem spaced_grammar {p : Phrase} (hp : p ≠ .typeSpec) :
    (grammar true p).spaced = true ∧ (grammar true p).isStruct = false ∧
      (grammar true p).endsInType = false := by
  cases p with
  | typeSpec => exact absurd rfl hp
  | binary l => cases l <;> decide
  | _ => decide

theorem exists_of_isDefinition {b : Bool} (hg : g.isDefinition = true) (h : Derives b g w) :
    ∃ tail, w = .identifier :: .symbol .leftBrace :: tail := by
  unfold Form.isDefinition at hg
  split at hg
  · cases h with
    | next hName h =>
      cases hName
      cases h with
      | next hBrace h =>
        cases hBrace
        exact ⟨_, rfl⟩
  · cases hg

theorem Form.precedes_of_plain (notStruct : f.isStruct = false) (notType : f.endsInType = false) :
    f.Precedes rest :=
  ⟨by simp [notStruct], by simp [notType]⟩

/-- A part that ends where the whole does precedes what the whole precedes. -/
theorem Form.Precedes.of_part (h : g.Precedes rest) (notStruct : f.isStruct = false)
    (ends : f.endsInType = true → g.endsInType = true) : f.Precedes rest :=
  ⟨by simp [notStruct], fun isType => h.type (ends isType)⟩

theorem Form.precedes_next (h : (Form.next f g).spaced = true) (hv : Derives true g v) :
    f.Precedes (v ++ rest) := by
  simp only [Form.spaced, Bool.and_eq_true, Bool.not_eq_true', Bool.or_eq_true,
    List.contains_eq_mem, decide_eq_false_iff_not] at h
  obtain ⟨⟨-, definition⟩, type⟩ := h
  refine ⟨fun isStruct => ?_, fun isType => ?_⟩
  · obtain ⟨tail, rfl⟩ := exists_of_isDefinition (definition.resolve_left (by simp [isStruct])) hv
    exact ⟨tail ++ rest, rfl⟩
  · obtain ⟨nonempty, notBrace⟩ := type.resolve_left (by simp [isType])
    obtain ⟨kind, tail, rfl, opens⟩ := hv.exists_opener nonempty
    intro e
    obtain rfl := Option.some.inj e
    exact notBrace opens

theorem erase_typeSpec (h : Derives true (.phrase .typeSpec) w)
    (notBrace : rest.head? ≠ some (.symbol .leftBrace)) :
    ∃ v, Derives false (.phrase .typeSpec) v ∧
      eraseStructKinds (w ++ rest) = v ++ eraseStructKinds rest := by
  rw [derives_typeSpec_iff] at h
  have word : ∀ kind, w = [kind] → kind ≠ .keyword .kwStruct →
      eraseStructKinds (w ++ rest) = [kind] ++ eraseStructKinds rest := by
    intro kind e other
    subst e
    exact eraseStructKinds_cons fun isStruct => absurd isStruct other
  rcases h with e | e | e | ⟨-, rfl⟩
  · exact ⟨_, derives_typeSpec_iff.mpr (.inl rfl), word _ e (by decide)⟩
  · exact ⟨_, derives_typeSpec_iff.mpr (.inr (.inl rfl)), word _ e (by decide)⟩
  · exact ⟨_, derives_typeSpec_iff.mpr (.inr (.inr (.inl rfl))), word _ e (by decide)⟩
  · exact ⟨_, derives_typeSpec_iff.mpr (.inl rfl), eraseStructKinds_type notBrace⟩

/-- What a phrase describes where `struct` with a name is a type, it describes with
the types erased where it is none, whatever stands after it. -/
theorem Derives.erase (h : Derives true f w) (hf : f.spaced = true) (before : f.Precedes rest) :
    ∃ v, Derives false f v ∧ eraseStructKinds (w ++ rest) = v ++ eraseStructKinds rest := by
  induction h generalizing rest with
  | empty => exact ⟨[], .empty, rfl⟩
  | token kind =>
    refine ⟨[kind], .token kind, eraseStructKinds_cons fun isStruct tail e => ?_⟩
    subst isStruct
    obtain ⟨tail', rfl⟩ := before.definition rfl
    obtain ⟨-, rfl⟩ := List.cons.inj e
    rfl
  | @phrase p w h ih =>
    by_cases hp : p = .typeSpec
    · subst hp
      exact erase_typeSpec (.phrase h) (before.type rfl)
    · obtain ⟨spaced, notStruct, notType⟩ := spaced_grammar hp
      obtain ⟨v, hv, e⟩ := ih spaced (Form.precedes_of_plain notStruct notType)
      rw [← grammar_eq_true false hp] at hv
      exact ⟨v, .phrase hv, e⟩
  | @next f g u v hu hv ihFirst ihSecond =>
    have parts := hf
    simp only [Form.spaced, Bool.and_eq_true, Bool.not_eq_true'] at parts
    obtain ⟨⟨⟨⟨hFirst, hSecond⟩, notStruct⟩, -⟩, -⟩ := parts
    obtain ⟨x, hx, ex⟩ := ihFirst hFirst (Form.precedes_next hf hv)
    obtain ⟨y, hy, ey⟩ := ihSecond hSecond
      (before.of_part notStruct fun ends => by simp [Form.endsInType, ends])
    refine ⟨x ++ y, .next hx hy, ?_⟩
    rw [List.append_assoc, ex, ey, List.append_assoc]
  | @first f g w h ih =>
    simp only [Form.spaced, Bool.and_eq_true, Bool.not_eq_true'] at hf
    obtain ⟨⟨⟨hFirst, -⟩, notStruct⟩, -⟩ := hf
    obtain ⟨v, hv, e⟩ := ih hFirst
      (before.of_part notStruct fun ends => by simp [Form.endsInType, ends])
    exact ⟨v, .first hv, e⟩
  | @second f g w h ih =>
    simp only [Form.spaced, Bool.and_eq_true, Bool.not_eq_true'] at hf
    obtain ⟨⟨⟨-, hSecond⟩, -⟩, notStruct⟩ := hf
    obtain ⟨v, hv, e⟩ := ih hSecond
      (before.of_part notStruct fun ends => by simp [Form.endsInType, ends])
    exact ⟨v, .second hv, e⟩
  | none => exact ⟨[], .none, rfl⟩
  | @more f u v _ _ ihFirst ihRest =>
    have parts := hf
    simp only [Form.spaced, Bool.and_eq_true, Bool.not_eq_true'] at parts
    obtain ⟨⟨hFirst, notStruct⟩, notType⟩ := parts
    obtain ⟨x, hx, ex⟩ := ihFirst hFirst (Form.precedes_of_plain notStruct notType)
    obtain ⟨y, hy, ey⟩ := ihRest hf before
    refine ⟨x ++ y, .more hx hy, ?_⟩
    rw [List.append_assoc, ex, ey, List.append_assoc]

/-! ## A phrase of the narrower grammar, with structures for some types -/

/-- The first kinds are the second ones, with `struct` and a name for some `int`. -/
inductive Respells : List TokenKind → List TokenKind → Prop where
  | nil : Respells [] []
  | same {kind : TokenKind} {w v : List TokenKind} :
    Respells w v → Respells (kind :: w) (kind :: v)
  | type {w v : List TokenKind} :
    Respells w v → Respells (.keyword .kwStruct :: .identifier :: w) (.keyword .kwInt :: v)

/-- What is erased can be put back. -/
theorem respells_eraseStructKinds (w : List TokenKind) : Respells w (eraseStructKinds w) := by
  fun_induction eraseStructKinds w with
  | case1 => exact .nil
  | case2 kind => exact .same .nil
  | case3 first second rest isType ih =>
    obtain ⟨rfl, rfl, -⟩ := isType
    exact .type ih
  | case4 first second rest _ ih => exact .same ih

theorem Respells.exists_append (h : Respells w (u ++ v)) :
    ∃ x y, w = x ++ y ∧ Respells x u ∧ Respells y v := by
  induction u generalizing w with
  | nil => exact ⟨[], w, rfl, .nil, h⟩
  | cons kind u ih =>
    cases h with
    | same h =>
      obtain ⟨x, y, rfl, hx, hy⟩ := ih h
      exact ⟨_ :: x, y, rfl, .same hx, hy⟩
    | type h =>
      obtain ⟨x, y, rfl, hx, hy⟩ := ih h
      exact ⟨_ :: _ :: x, y, rfl, .type hx, hy⟩

theorem Respells.eq_nil (h : Respells w []) : w = [] := by
  cases h
  rfl

theorem Respells.eq_singleton (h : Respells w [kind]) (notInt : kind ≠ .keyword .kwInt) :
    w = [kind] := by
  cases h with
  | same h => rw [h.eq_nil]
  | type h => exact absurd rfl notInt

namespace Form

/-- Whether the form speaks of `int`, other than by the phrases in it. -/
def mentionsInt : Form → Bool
  | empty => false
  | token kind => kind == .keyword .kwInt
  | phrase _ => false
  | next f g => f.mentionsInt || g.mentionsInt
  | either f g => f.mentionsInt || g.mentionsInt
  | many f => f.mentionsInt

end Form

theorem mentionsInt_grammar (b : Bool) {p : Phrase} (hp : p ≠ .typeSpec) :
    (grammar b p).mentionsInt = false := by
  cases p with
  | typeSpec => exact absurd rfl hp
  | binary l => cases l <;> rfl
  | _ => rfl

theorem respell_typeSpec (h : Derives false (.phrase .typeSpec) v) (hw : Respells w v) :
    Derives true (.phrase .typeSpec) w := by
  rw [derives_typeSpec_iff] at h ⊢
  rcases h with rfl | rfl | rfl | ⟨isTrue, -⟩
  · cases hw with
    | same hw => exact .inl (by rw [hw.eq_nil])
    | type hw => exact .inr (.inr (.inr ⟨rfl, by rw [hw.eq_nil]⟩))
  · exact .inr (.inl (hw.eq_singleton (by decide)))
  · exact .inr (.inr (.inl (hw.eq_singleton (by decide))))
  · cases isTrue

/-- What a phrase describes where `struct` with a name is no type, it describes with
structures for some `int` where it is one. -/
theorem Derives.respell (h : Derives false f v) (hf : f.mentionsInt = false)
    (hw : Respells w v) : Derives true f w := by
  induction h generalizing w with
  | empty =>
    rw [hw.eq_nil]
    exact .empty
  | token kind =>
    rw [hw.eq_singleton (by simpa [Form.mentionsInt] using hf)]
    exact .token kind
  | @phrase p v h ih =>
    by_cases hp : p = .typeSpec
    · subst hp
      exact respell_typeSpec (.phrase h) hw
    · have wide := ih (mentionsInt_grammar false hp) hw
      rw [grammar_eq_true false hp] at wide
      exact .phrase wide
  | next _ _ ihFirst ihSecond =>
    simp only [Form.mentionsInt, Bool.or_eq_false_iff] at hf
    obtain ⟨x, y, rfl, hx, hy⟩ := hw.exists_append
    exact .next (ihFirst hf.1 hx) (ihSecond hf.2 hy)
  | first _ ih =>
    simp only [Form.mentionsInt, Bool.or_eq_false_iff] at hf
    exact .first (ih hf.1 hw)
  | second _ ih =>
    simp only [Form.mentionsInt, Bool.or_eq_false_iff] at hf
    exact .second (ih hf.2 hw)
  | none =>
    rw [hw.eq_nil]
    exact .none
  | more _ _ ihFirst ihRest =>
    obtain ⟨x, y, rfl, hx, hy⟩ := hw.exists_append
    exact .more (ihFirst hf hx) (ihRest hf hy)

/-! ## Units -/

theorem derives_unit_iff_erased :
    Derives true (.phrase .unit) w ↔ Derives false (.phrase .unit) (eraseStructKinds w) := by
  constructor
  · intro h
    have last : (Form.phrase .unit).Precedes [] := Form.precedes_of_plain rfl rfl
    obtain ⟨v, hv, e⟩ := h.erase rfl last
    rw [List.append_nil, eraseStructKinds, List.append_nil] at e
    rw [e]
    exact hv
  · intro h
    exact h.respell rfl (respells_eraseStructKinds w)

theorem sentence_eraseStructTypes (tokens : List Token) :
    (TokenSequence.ofArray (eraseStructTypes tokens).toArray).sentence =
      eraseStructKinds (TokenSequence.ofArray tokens.toArray).sentence := by
  rw [TokenSequence.sentence_ofArray, TokenSequence.sentence_ofArray, map_kind_eraseStructTypes,
    eraseStructKinds_takeWhile]

/-- To accept `struct` with a name as a type is to accept the tokens in which it is
written `int`, and nothing else. -/
theorem parse_ok_iff_erased (tokens : List Token) :
    (Parser.ofTokens tokens.toArray true).parse.1 = .ok () ↔
      (Parser.ofTokens (eraseStructTypes tokens).toArray false).parse.1 = .ok () := by
  rw [Parser.parse_eq_ok_iff, Parser.parse_eq_ok_iff]
  change Derives true _ (TokenSequence.ofArray _).sentence ↔
    Derives false _ (TokenSequence.ofArray _).sentence
  rw [sentence_eraseStructTypes]
  exact derives_unit_iff_erased

end AtomFrontEnd

import AtomFrontEnd.Proofs.Prediction

/-!
Casts and assignments, which are tried before it is clear that they stand there.

A parenthesis may begin a cast or enclose an expression, and the token after it
tells which: types and expressions open differently. What stands before `=` is an
operand, but an operand is also how most other expressions begin. It is read
first, and once more if no `=` follows it. Only where a cast begins is no operand
found at all (`beginsWithOperand_of_disjunction`).
-/

namespace AtomFrontEnd

variable {s : Setting} {start : Nat} {b : Bool} {w : List TokenKind}

/-! ## Casts -/

theorem derives_cast_iff :
    Derives b (.phrase .cast) w ↔
      (∃ type v, Derives b (.phrase .typeSpec) type ∧ Derives b (.phrase .cast) v ∧
        w = .symbol .leftParen :: (type ++ .symbol .rightParen :: v)) ∨
      Derives b (.phrase .unary) w := by
  rw [← spells_eq_iff, spells_phrase]
  simp only [grammar, spells_either, spells_next, Form.parenthesized, Form.sequence,
    spells_token, List.cons_append, List.nil_append, List.append_assoc]
  refine or_congr ?_ spells_eq_iff
  constructor
  · intro h
    obtain ⟨type, hType, v, hv, e⟩ := h
    exact ⟨type, v, hType, hv, e.symm⟩
  · intro h
    obtain ⟨type, v, hType, hv, e⟩ := h
    exact ⟨type, hType, v, hv, e.symm⟩

/-- An operand that begins with a parenthesis goes on with an expression. -/
theorem exists_of_derives_unary_leftParen
    (h : Derives b (.phrase .unary) (.symbol .leftParen :: w)) :
    ∃ kind rest, w = kind :: rest ∧ kind ∈ TokenKind.expressionOpeners := by
  rw [← spells_eq_iff, spells_phrase] at h
  simp only [grammar, Form.symbol, spells_either, spells_next, spells_token] at h
  rcases h with (⟨v, -, h⟩ | ⟨v, -, h⟩) | h
  · simp at h
  · simp at h
  · rw [spells_phrase] at h
    simp only [grammar, spells_next] at h
    rw [spells_phrase] at h
    simp [grammar, Form.choice, Form.parenthesized, Form.sequence, Form.symbol, Form.optional] at h
    obtain ⟨e, hExpr, v, -, rfl⟩ := h
    obtain ⟨kind, rest, rfl, mem⟩ := hExpr.exists_opener rfl
    exact ⟨kind, _, rfl, mem⟩

theorem not_mem_typeSpec_openers {kind : TokenKind} (h : kind ∈ TokenKind.expressionOpeners) :
    kind ∉ (Production.form .typeSpec).openers true := by
  have apart : ∀ kind ∈ TokenKind.expressionOpeners,
      kind ∉ (Production.form .typeSpec).openers true := by decide
  exact apart kind h

theorem not_mem_expression_openers {kind : TokenKind} (h : kind ∈ TokenKind.typeOpeners true) :
    kind ∉ (Production.form .expression).openers true :=
  fun mem => not_mem_typeSpec_openers mem h

theorem yields_cast_of_typed (hs : s.recalling = false) {type v : List TokenKind}
    (ih : s.SpansBelow (14 * (.symbol .leftParen :: (type ++ .symbol .rightParen :: v)).length
      + Production.rank .cast))
    (hType : Derives s.structTypes (.phrase .typeSpec) type)
    (hv : Derives s.structTypes (.phrase .cast) v)
    (shown : s.tokens.Shows start (.symbol .leftParen :: (type ++ .symbol .rightParen :: v)))
    (beyond : s.tokens.kindAt
      (start + (.symbol .leftParen :: (type ++ .symbol .rightParen :: v)).length) ∉
        Production.extenders .cast) :
    s.Yields .cast start true
      (start + (.symbol .leftParen :: (type ++ .symbol .rightParen :: v)).length) := by
  intro c here
  subst here
  obtain ⟨opens, shownType⟩ := shown
  rw [TokenSequence.shows_append] at shownType
  obtain ⟨shownType, closes, shownCast⟩ := shownType
  have length : (TokenKind.symbol .leftParen :: (type ++ .symbol .rightParen :: v)).length =
      type.length + v.length + 2 := by
    simp only [List.length_append, List.length_cons]
    omega
  apply Command.Leads.taken opens (by decide)
  intro c₁ there₁
  rw [← there₁] at shownType closes shownCast
  have spansType := ih.part .typeSpec (by omega) hType shownType (by decide)
    (by simp [Production.extenders])
  apply Command.Leads.called hs spansType
  intro c₂ there₂
  rw [← there₂] at closes shownCast
  apply Command.Leads.needed closes
  intro c₃ there₃
  rw [← there₃] at shownCast
  have stop : c₃.position + v.length =
      c.position + (.symbol .leftParen :: (type ++ .symbol .rightParen :: v)).length := by
    omega
  rw [← stop] at beyond ⊢
  have spansCast := ih.part .cast (by omega) hv shownCast (by decide) beyond
  apply Command.Leads.called hs spansCast
  intro c₄ there₄
  exact .finish there₄

theorem yields_cast (hs : s.recalling = false)
    (ih : s.SpansBelow (14 * w.length + Production.rank .cast))
    (h : Derives s.structTypes (.phrase .cast) w) (shown : s.tokens.Shows start w)
    (beyond : s.tokens.kindAt (start + w.length) ∉ Production.extenders .cast) :
    s.Yields .cast start true (start + w.length) := by
  rcases derives_cast_iff.mp h with ⟨type, v, hType, hv, rfl⟩ | h
  · exact yields_cast_of_typed hs ih hType hv shown beyond
  intro c here
  subst here
  have spans : s.Yields .unary c.position true (c.position + w.length) :=
    ih.lower .unary (by decide) (Nat.le_refl _) h shown (by decide) beyond
  by_cases stands : s.tokens.kindAt c.position = .symbol .leftParen
  · -- the parenthesis is the operand's, since no type stands after it
    apply Command.Leads.taken stands (by decide)
    intro c₁ there₁
    obtain ⟨first, rest, rfl, -⟩ := h.exists_opener rfl
    obtain ⟨e, shown⟩ := shown
    obtain rfl := e.symm.trans stands
    obtain ⟨kind, rest, rfl, mem⟩ := exists_of_derives_unary_leftParen h
    have refuses : s.Yields .typeSpec c₁.position false c₁.position := by
      apply s.yields_refusal hs rfl
      rw [there₁, shown.1]
      exact not_mem_typeSpec_openers mem
    apply Command.Leads.called hs refuses
    intro c₂ there₂
    apply Command.Leads.rewound
    apply Command.Leads.become hs
    rw [Cursor.position_rewind]
    exact spans
  · exact .missed stands (.become hs spans)

/-! ## Beginnings of expressions -/

/-- The sequence begins with an operand, and one of the given operators or nothing
follows it; or it begins with a cast. -/
def BeginsWithOperand (structTypes : Bool) (operators w : List TokenKind) : Prop :=
  (∃ v rest, w = v ++ rest ∧ Derives structTypes (.phrase .unary) v ∧
      ∀ kind tail, rest = kind :: tail → kind ∈ operators) ∨
    ∃ kind rest, w = .symbol .leftParen :: kind :: rest ∧ kind ∈ TokenKind.typeOpeners structTypes

theorem beginsWithOperand_of_cast (h : Derives b (.phrase .cast) w) : BeginsWithOperand b [] w := by
  rcases derives_cast_iff.mp h with ⟨type, v, hType, -, rfl⟩ | h
  · obtain ⟨kind, rest, rfl, mem⟩ := hType.exists_opener rfl
    exact .inr ⟨kind, _, rfl, mem⟩
  · refine .inl ⟨w, [], (List.append_nil w).symm, h, ?_⟩
    intro kind tail e
    cases e

theorem grammar_binary (b : Bool) (l : Level) :
    grammar b (.binary l) = .separated (.phrase l.operandPhrase) l.operatorForm := by
  cases l <;> rfl

theorem openers_operatorForm (b : Bool) (l : Level) : l.operatorForm.openers b = l.operators := by
  cases l <;> rfl

theorem nullable_operatorForm (l : Level) : l.operatorForm.nullable = false := by
  cases l <;> rfl

/-- If operands of a level begin so, then so does what the level joins. -/
theorem beginsWithOperand_of_binary {l : Level} {operators : List TokenKind}
    (operand : ∀ u, Derives b (.phrase l.operandPhrase) u → BeginsWithOperand b operators u)
    (h : Derives b (.phrase (.binary l)) w) : BeginsWithOperand b (l.operators ++ operators) w := by
  rw [← spells_eq_iff, spells_phrase, grammar_binary, Form.separated, spells_next] at h
  obtain ⟨u, hu, more, hMore, rfl⟩ := h
  rcases operand u hu with ⟨v, rest, rfl, hv, follows⟩ | ⟨kind, rest, rfl, mem⟩
  · refine .inl ⟨v, rest ++ more, List.append_assoc .., hv, ?_⟩
    intro kind tail e
    cases rest with
    | nil =>
      have opens := hMore.mem_openers e
      simp only [Form.openers, openers_operatorForm, nullable_operatorForm, Bool.false_eq_true,
        if_false, List.append_nil] at opens
      exact List.mem_append_left _ opens
    | cons first rest =>
      obtain ⟨rfl, -⟩ := List.cons.inj e
      exact List.mem_append_right _ (follows first rest rfl)
  · exact .inr ⟨kind, rest ++ more, rfl, mem⟩

theorem beginsWithOperand_of_disjunction (h : Derives b (.phrase (.binary .disjunction)) w) :
    BeginsWithOperand b (Level.disjunction.andTighter.flatMap Level.operators) w := by
  have product : ∀ u, Derives b (.phrase (.binary .product)) u → BeginsWithOperand b _ u :=
    fun u => beginsWithOperand_of_binary fun v => beginsWithOperand_of_cast
  have sum : ∀ u, Derives b (.phrase (.binary .sum)) u → BeginsWithOperand b _ u :=
    fun u => beginsWithOperand_of_binary product
  have relation : ∀ u, Derives b (.phrase (.binary .relation)) u → BeginsWithOperand b _ u :=
    fun u => beginsWithOperand_of_binary sum
  have equality : ∀ u, Derives b (.phrase (.binary .equality)) u → BeginsWithOperand b _ u :=
    fun u => beginsWithOperand_of_binary relation
  have conjunction : ∀ u, Derives b (.phrase (.binary .conjunction)) u → BeginsWithOperand b _ u :=
    fun u => beginsWithOperand_of_binary equality
  exact beginsWithOperand_of_binary conjunction h

/-! ## Assignments -/

theorem yields_primary_refusal (hs : s.recalling = false)
    (opens : s.tokens.kindAt start = .symbol .leftParen)
    (type : s.tokens.kindAt (start + 1) ∈ TokenKind.typeOpeners true) :
    s.Yields .primary start false start := by
  intro c here
  subst here
  have other : ∀ {kind : TokenKind}, .symbol .leftParen ≠ kind →
      s.tokens.kindAt c.position ≠ kind := by
    intro kind ne
    rw [opens]
    exact ne
  refine .missed (other (by decide)) <| .missed (other (by decide)) <|
    .missed (other (by decide)) <| .missed (other (by decide)) <| .missed (other (by decide)) ?_
  refine .taken opens (by decide) ?_
  intro c₁ there₁
  have refuses : s.Yields .expression c₁.position false c₁.position := by
    rw [there₁]
    exact s.yields_refusal hs rfl (not_mem_expression_openers type)
  apply Command.Leads.called hs refuses
  intro c₂ there₂
  exact .rewound (.finish (Cursor.position_rewind ..))

/-- Where a cast begins, no operand without one does. -/
theorem yields_unary_refusal (hs : s.recalling = false)
    (opens : s.tokens.kindAt start = .symbol .leftParen)
    (type : s.tokens.kindAt (start + 1) ∈ TokenKind.typeOpeners true) :
    s.Yields .unary start false start := by
  have primary := yields_primary_refusal hs opens type
  have suffixed : s.Yields .suffixed start false start := by
    intro c here
    subst here
    apply Command.Leads.called hs primary
    intro c' there
    exact .finish there
  intro c here
  subst here
  apply Command.Leads.missed (by rw [opens]; decide)
  apply Command.Leads.missed (by rw [Cursor.position_miss, opens]; decide)
  exact .become hs suffixed

/-- An expression is an operand, `=` and an expression, or it has none before it. -/
theorem derives_expression_iff :
    Derives b (.phrase .expression) w ↔
      (∃ v e, Derives b (.phrase .unary) v ∧ Derives b (.phrase .expression) e ∧
        w = v ++ .symbol .assign :: e) ∨
      Derives b (.phrase (.binary .disjunction)) w := by
  rw [← spells_eq_iff, spells_phrase]
  simp only [grammar, spells_either, spells_next, Form.sequence, Form.symbol, spells_token,
    List.cons_append, List.nil_append]
  refine or_congr ?_ spells_eq_iff
  constructor
  · intro h
    obtain ⟨v, hv, e, he, eq⟩ := h
    exact ⟨v, e, hv, he, eq.symm⟩
  · intro h
    obtain ⟨v, e, hv, he, eq⟩ := h
    exact ⟨v, hv, e, he, eq.symm⟩

theorem yields_assignment (hs : s.recalling = false) {v e : List TokenKind}
    (ih : s.SpansBelow (14 * (v ++ .symbol .assign :: e).length + Production.rank .expression))
    (hv : Derives s.structTypes (.phrase .unary) v)
    (he : Derives s.structTypes (.phrase .expression) e)
    (shown : s.tokens.Shows start (v ++ .symbol .assign :: e))
    (beyond : s.tokens.kindAt (start + (v ++ .symbol .assign :: e).length) ∉
      Production.extenders .expression) :
    s.Yields .expression start true (start + (v ++ .symbol .assign :: e).length) := by
  intro c here
  subst here
  rw [TokenSequence.shows_append] at shown
  obtain ⟨shownTarget, assigns, shownValue⟩ := shown
  have length : (v ++ TokenKind.symbol .assign :: e).length = v.length + e.length + 1 := by
    simp only [List.length_append, List.length_cons]
    omega
  have target : s.Yields .unary c.position true (c.position + v.length) := by
    refine ih.lower .unary (by decide) (by omega) hv shownTarget (by decide) ?_
    rw [assigns]
    decide
  apply Command.Leads.called hs target
  intro c₁ there₁
  rw [← there₁] at assigns shownValue
  apply Command.Leads.taken assigns (by decide)
  intro c₂ there₂
  rw [← there₂] at shownValue
  have stop : c₂.position + e.length = c.position + (v ++ .symbol .assign :: e).length := by
    omega
  rw [← stop] at beyond ⊢
  have value := ih.part .expression (by omega) he shownValue (by decide) beyond
  apply Command.Leads.called hs value
  intro c₃ there₃
  exact .finish there₃

theorem yields_expression (hs : s.recalling = false)
    (ih : s.SpansBelow (14 * w.length + Production.rank .expression))
    (h : Derives s.structTypes (.phrase .expression) w) (shown : s.tokens.Shows start w)
    (beyond : s.tokens.kindAt (start + w.length) ∉ Production.extenders .expression) :
    s.Yields .expression start true (start + w.length) := by
  rcases derives_expression_iff.mp h with ⟨v, e, hv, he, rfl⟩ | h
  · exact yields_assignment hs ih hv he shown beyond
  intro c here
  subst here
  have disjunction : s.Yields (.binary .disjunction) c.position true (c.position + w.length) := by
    refine ih.lower (.binary .disjunction) (by decide) (Nat.le_refl _) h shown (by decide) ?_
    intro mem
    exact beyond (List.mem_cons_of_mem _ mem)
  rcases beginsWithOperand_of_disjunction h with ⟨v, rest, rfl, hv, follows⟩ | ⟨kind, rest, rfl, mem⟩
  · -- an operand is found, but no assignment
    rw [TokenSequence.shows_append] at shown
    obtain ⟨shownOperand, shownRest⟩ := shown
    have next : s.tokens.kindAt (c.position + v.length) ∉
        .symbol .assign :: Production.extenders .unary := by
      cases rest with
      | nil =>
        rw [List.append_nil] at beyond
        have sub : .symbol .assign :: Production.extenders .unary ⊆
            Production.extenders .expression := by decide
        intro mem
        exact beyond (sub mem)
      | cons kind tail =>
        have apart : ∀ kind ∈ Level.disjunction.andTighter.flatMap Level.operators,
            kind ∉ .symbol .assign :: Production.extenders .unary := by decide
        rw [shownRest.1]
        exact apart kind (follows kind tail rfl)
    rw [List.mem_cons, not_or] at next
    obtain ⟨noAssign, notExtended⟩ := next
    have operand := ih.lower .unary (by decide) (by simp) hv shownOperand (by decide) notExtended
    apply Command.Leads.called hs operand
    intro c₁ there₁
    rw [← there₁] at noAssign
    apply Command.Leads.missed noAssign
    apply Command.Leads.rewound
    apply Command.Leads.become hs
    rw [Cursor.position_rewind]
    exact disjunction
  · -- a cast is found by neither way but the last
    have refuses : s.Yields .unary c.position false c.position := by
      apply yields_unary_refusal hs shown.1
      rw [shown.2.1]
      have sub : TokenKind.typeOpeners s.structTypes ⊆ TokenKind.typeOpeners true := by
        cases s.structTypes <;> decide
      exact sub mem
    apply Command.Leads.called hs refuses
    intro c₁ there₁
    apply Command.Leads.become hs
    rw [there₁]
    exact disjunction

end AtomFrontEnd

import AtomFrontEnd.Proofs.Prediction

/-!
Declarations: structures, functions and variables.

The three kinds can begin alike, and up to four tokens tell them apart: a brace
after `struct` and a name begins a structure, a parenthesis after a type and a
name begins a function, and anything else there a variable. Each kind is turned
down where another stands, before it has committed itself (`leads_declaration`).
-/

namespace AtomFrontEnd

variable {s : Setting} {b : Bool} {start stop : Nat} {a : Activation} {c : Cursor}
  {type rest v w : List TokenKind}

def Form.declaration : Form :=
  choice (phrase .structDef) [phrase .funcDef, phrase .varDef]

/-! ## Beginnings -/

theorem derives_typeSpec_iff :
    Derives b (.phrase .typeSpec) w ↔
      w = [.keyword .kwInt] ∨ w = [.keyword .kwDouble] ∨ w = [.keyword .kwChar] ∨
      b = true ∧ w = [.keyword .kwStruct, .identifier] := by
  rw [← spells_eq_iff, spells_phrase]
  cases b <;>
    simp [grammar, Form.choice, Form.keyword, eq_comm]

/-- What may stand before the name of a function. -/
def ResultType (structTypes : Bool) (w : List TokenKind) : Prop :=
  Derives structTypes (.phrase .typeSpec) w ∨ w = [.keyword .kwVoid]

theorem resultType_iff :
    ResultType b w ↔
      w = [.keyword .kwInt] ∨ w = [.keyword .kwDouble] ∨ w = [.keyword .kwChar] ∨
      (b = true ∧ w = [.keyword .kwStruct, .identifier]) ∨ w = [.keyword .kwVoid] := by
  rw [ResultType, derives_typeSpec_iff]
  simp only [or_assoc]

/-- No type, nor `void`, is the beginning of another. -/
theorem ResultType.unique {x y : List TokenKind} (hv : ResultType b v) (hw : ResultType b w)
    (e : v ++ x = w ++ y) : v = w := by
  rw [resultType_iff] at hv hw
  rcases hv with rfl | rfl | rfl | ⟨-, rfl⟩ | rfl <;>
    rcases hw with rfl | rfl | rfl | ⟨-, rfl⟩ | rfl <;>
    simp at e ⊢

theorem exists_of_derives_structDef (h : Derives b (.phrase .structDef) w) :
    ∃ rest, w = .keyword .kwStruct :: .identifier :: .symbol .leftBrace :: rest := by
  rw [← spells_eq_iff, spells_phrase] at h
  simp only [grammar, Form.sequence, Form.keyword, Form.symbol, spells_next, spells_token] at h
  obtain ⟨v, -, h⟩ := h
  exact ⟨_, h.symm⟩

theorem exists_of_derives_funcDef (h : Derives b (.phrase .funcDef) w) :
    ∃ type rest, ResultType b type ∧ w = type ++ .identifier :: .symbol .leftParen :: rest := by
  rw [← spells_eq_iff, spells_phrase] at h
  simp only [grammar, Form.sequence, Form.parenthesized, Form.keyword, Form.symbol, spells_next,
    spells_token, spells_either] at h
  rcases h with ⟨type, hType, v, -, u, -, h⟩ | ⟨v, -, u, -, h⟩
  · exact ⟨type, _, .inl hType, h.symm⟩
  · exact ⟨[.keyword .kwVoid], _, .inr rfl, h.symm⟩

theorem exists_of_derives_varDef (h : Derives b (.phrase .varDef) w) :
    ∃ type mark rest, Derives b (.phrase .typeSpec) type ∧
      w = type ++ .identifier :: mark :: rest ∧ mark ≠ .symbol .leftParen := by
  change Derives b (Production.form .varDef) w at h
  rw [← admits_rules_iff] at h
  simp only [rules, Command.Admits, Command.become, Command.accept, Command.refuse,
    Command.reject, Bool.false_eq_true, false_and, or_false, true_and] at h
  obtain ⟨type, hType, v, hv, h⟩ := h
  obtain ⟨mark, rest, rfl, mem⟩ := hv.exists_opener rfl
  refine ⟨type, mark, rest, hType, by simpa using h.symm, ?_⟩
  intro isParen
  subst isParen
  exact absurd mem (by cases b <;> decide)

/-! ## Refusals -/

theorem yields_structDef_refusal
    (named : s.tokens.kindAt start = .keyword .kwStruct →
      s.tokens.kindAt (start + 1) = .identifier)
    (other : s.tokens.kindAt start = .keyword .kwStruct →
      s.tokens.kindAt (start + 1 + 1) ≠ .symbol .leftBrace) :
    s.Yields .structDef start false start := by
  intro c here
  subst here
  by_cases isStruct : s.tokens.kindAt c.position = .keyword .kwStruct
  · have named := named isStruct
    have other := other isStruct
    apply Command.Leads.taken isStruct (by decide)
    intro c₁ there₁
    rw [← there₁] at named other
    apply Command.Leads.needed named
    intro c₂ there₂
    rw [← there₂] at other
    apply Command.Leads.missed other
    exact .rewound (.finish (Cursor.position_rewind ..))
  · exact .missed isStruct (.finish rfl)

/-- Where a type and a name stand no structure begins. -/
theorem yields_structDef_refusal_of_typed
    (hType : ResultType s.structTypes type)
    (shown : s.tokens.Shows start (type ++ .identifier :: rest)) :
    s.Yields .structDef start false start := by
  rw [resultType_iff] at hType
  rcases hType with rfl | rfl | rfl | ⟨-, rfl⟩ | rfl
  case inr.inr.inr.inl =>
    obtain ⟨-, name, other, -⟩ := shown
    apply yields_structDef_refusal
    · intro _
      exact name
    · intro _
      rw [other]
      decide
  all_goals
    have first := shown.1
    apply yields_structDef_refusal
    all_goals
      intro isStruct
      rw [isStruct] at first
      cases first

/-- A function is turned down where a type and a name have no parenthesis after
them, if types are spanned. -/
theorem yields_funcDef_refusal (hs : s.recalling = false)
    (spans : s.Yields .typeSpec start true (start + type.length))
    (named : s.tokens.kindAt (start + type.length) = .identifier)
    (other : s.tokens.kindAt (start + type.length + 1) ≠ .symbol .leftParen) :
    s.Yields .funcDef start false start := by
  intro c here
  subst here
  apply Command.Leads.called hs spans
  intro c₁ there₁
  rw [← there₁] at named other
  apply Command.Leads.taken named (by decide)
  intro c₂ there₂
  rw [← there₂] at other
  apply Command.Leads.missed other
  exact .rewound (.finish (Cursor.position_rewind ..))

theorem yields_funcDef_refusal_of_varDef (hs : s.recalling = false)
    (ih : s.SpansBelow (14 * w.length + Production.rank .unit)) (le : v.length ≤ w.length)
    (h : Derives s.structTypes (.phrase .varDef) v) (shown : s.tokens.Shows start v) :
    s.Yields .funcDef start false start := by
  obtain ⟨type, mark, rest, hType, rfl, other⟩ := exists_of_derives_varDef h
  rw [TokenSequence.shows_append] at shown
  obtain ⟨shownType, name, isMark, -⟩ := shown
  have less : type.length ≤ w.length := by
    rw [List.length_append] at le
    omega
  have spans := ih.lower .typeSpec (by decide) less hType shownType (by decide)
    (by simp [Production.extenders])
  rw [← isMark] at other
  exact yields_funcDef_refusal hs spans name other

/-! ## Functions -/

/-- What stands in a function after its type. -/
def functionTail : Command :=
  .token .identifier
    (.token (.symbol .leftParen)
      (.call .param (.become .moreParams) <|
        .need .paramsClose <| .needPart .functionBody .accept)
      .reject)
    .reject

theorem rules_funcDef (b : Bool) :
    rules b .funcDef =
      .call .typeSpec functionTail (.rewind (.token (.keyword .kwVoid) functionTail .reject)) := rfl

theorem predictive_functionTail (b : Bool) : functionTail.predictive b .funcDef true = true := by
  cases b <;> decide

theorem yields_funcDef (hs : s.recalling = false)
    (ih : s.SpansBelow (14 * w.length + Production.rank .funcDef))
    (h : Derives s.structTypes (.phrase .funcDef) w) (shown : s.tokens.Shows start w) :
    s.Yields .funcDef start true (start + w.length) := by
  intro c here
  subst here
  change Derives s.structTypes (Production.form .funcDef) w at h
  rw [← admits_rules_iff, rules_funcDef] at h
  have tail : ∀ {u : List TokenKind} {c' : Cursor}, u ≠ [] → functionTail.Admits s.structTypes u w →
      c'.position = c.position + u.length →
      functionTail.Leads s ⟨.funcDef, c.position⟩ c' true (c.position + w.length) := by
    intro u c' nonempty admits there
    exact Command.leads_of_predictive hs ih shown (by simp [Production.extenders])
      (predictive_functionTail _) admits (fun _ => nonempty) there
  rw [rules_funcDef]
  rcases h with ⟨type, hType, h⟩ | h | h
  · obtain ⟨v, e, -⟩ := h.exists_rest (predictive_functionTail _)
    rw [List.nil_append] at h e
    obtain ⟨first, rest, nonempty, -⟩ := hType.exists_opener rfl
    have shownType : s.tokens.Shows c.position type := by
      rw [e, TokenSequence.shows_append] at shown
      exact shown.1
    have less : type.length ≤ w.length := by
      rw [e, List.length_append]
      omega
    have spans := ih.lower .typeSpec (by decide) less hType shownType (by decide)
      (by simp [Production.extenders])
    apply Command.Leads.called hs spans
    intro c' there
    exact tail (by simp [nonempty]) h there
  · rw [if_neg (by decide), List.nil_append] at h
    obtain ⟨v, e, -⟩ := h.exists_rest (predictive_functionTail _)
    have stands : s.tokens.kindAt c.position = .keyword .kwVoid := by
      rw [e] at shown
      exact shown.1
    have refuses : s.Yields .typeSpec c.position false c.position :=
      s.yields_refusal hs rfl (by rw [stands]; decide)
    apply Command.Leads.called hs refuses
    intro c₁ there₁
    apply Command.Leads.rewound
    rw [← Cursor.position_rewind c.position c₁] at stands
    apply Command.Leads.taken stands (by decide)
    intro c₂ there₂
    apply tail (by simp) h
    rw [there₂, Cursor.position_rewind]
    rfl
  · cases h.1

/-! ## Any declaration -/

/-- One declaration is spanned by its own kind, and the kinds before it refuse. -/
theorem leads_declaration (hs : s.recalling = false)
    (ih : s.SpansBelow (14 * w.length + Production.rank .unit)) (le : v.length ≤ w.length)
    (h : Derives s.structTypes .declaration v) (shown : s.tokens.Shows c.position v)
    {k miss : Command}
    (goesOn : ∀ c' : Cursor, c'.position = c.position + v.length → k.Leads s a c' true stop) :
    (Command.call .structDef k <| .call .funcDef k <| .call .varDef k miss).Leads s a c true stop := by
  have spans : ∀ q : Production, q.rank < Production.rank .unit → q ≠ .unit → q.extenders = [] →
      Derives s.structTypes q.form v → s.Yields q c.position true (c.position + v.length) := by
    intro q lower notUnit none hq
    exact ih.lower q lower le hq shown notUnit (by simp [none])
  rw [← spells_eq_iff] at h
  simp only [Form.declaration, Form.choice, spells_either] at h
  rcases h with ⟨v, h, rfl⟩ | ⟨v, h, rfl⟩ | ⟨v, h, rfl⟩
  · have struct := spans .structDef (by decide) (by decide) rfl h
    exact .called hs struct goesOn
  · have func := spans .funcDef (by decide) (by decide) rfl h
    have noStruct : s.Yields .structDef c.position false c.position := by
      obtain ⟨type, tail, hType, rfl⟩ := exists_of_derives_funcDef h
      exact yields_structDef_refusal_of_typed hType shown
    apply Command.Leads.called hs noStruct
    intro c₁ there₁
    rw [← there₁] at func goesOn
    exact .called hs func goesOn
  · have var := spans .varDef (by decide) (by decide) rfl h
    have noStruct : s.Yields .structDef c.position false c.position := by
      obtain ⟨type, mark, tail, hType, rfl, -⟩ := exists_of_derives_varDef h
      exact yields_structDef_refusal_of_typed (.inl hType) shown
    have noFunc := yields_funcDef_refusal_of_varDef hs ih le h shown
    apply Command.Leads.called hs noStruct
    intro c₁ there₁
    rw [← there₁] at noFunc var goesOn
    apply Command.Leads.called hs noFunc
    intro c₂ there₂
    rw [← there₂] at var goesOn
    exact .called hs var goesOn

end AtomFrontEnd

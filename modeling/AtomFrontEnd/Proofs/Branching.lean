import AtomFrontEnd.Proofs.Prediction

/-!
Statements, of which an `if` may or may not have an `else`.

The recognizer gives an `else` to the nearest `if` that can take it. Every
statement can be derived so (`nested_of_derives`), and derived so it is spanned: a
statement between `if` and `else` is closed, and a statement at the end of another
may take an `else` only if the other one may.
-/

namespace AtomFrontEnd

variable {s : Setting} {start stop : Nat} {u v w : List TokenKind} {a : Activation} {c : Cursor}

namespace Command.Leads

theorem parenthesized (hs : s.recalling = false) {n : Nat}
    (ih : s.SpansBelow (14 * w.length + n)) (less : v.length < w.length)
    (h : Derives s.structTypes (.parenthesized (.phrase .expression)) v)
    {leftParen rightParen : MissingToken} {part : MissingPart} {next : Command}
    (opens : leftParen.kind = .symbol .leftParen) (isExpr : part.production = .expression)
    (closes : rightParen.kind = .symbol .rightParen) (shown : s.tokens.Shows c.position v)
    (rest : ∀ c' : Cursor, c'.position = c.position + v.length → next.Leads s a c' true stop) :
    (need leftParen <| needPart part <| need rightParen next).Leads s a c true stop := by
  obtain ⟨e, he, rfl⟩ := derives_parenthesized_iff.mp h
  have length : (TokenKind.symbol .leftParen :: (e ++ [.symbol .rightParen])).length =
      e.length + 2 := by
    simp only [List.length_append, List.length_cons, List.length_nil]
  obtain ⟨shownOpen, shownExpr⟩ := shown
  rw [TokenSequence.shows_append] at shownExpr
  obtain ⟨shownExpr, shownClose, -⟩ := shownExpr
  apply needed (shownOpen.trans opens.symm)
  intro c₁ there₁
  rw [← there₁] at shownExpr shownClose
  have spans : s.Yields part.production c₁.position true (c₁.position + e.length) := by
    rw [isExpr]
    refine ih.part .expression (by omega) he shownExpr (by decide) ?_
    rw [shownClose]
    decide
  apply called hs spans
  intro c₂ there₂
  rw [← there₂] at shownClose
  apply needed (shownClose.trans closes.symm)
  intro c₃ there₃
  apply rest
  omega

theorem pastBranches (hs : s.recalling = false) {branch while_ for_ k : Command}
    (other : s.tokens.kindAt c.position ∉
      [.symbol .leftBrace, .keyword .kwIf, .keyword .kwWhile, .keyword .kwFor])
    (h : ∀ c' : Cursor, c'.position = c.position → k.Leads s a c' true stop) :
    (call .block accept <| token (.keyword .kwIf) branch <| token (.keyword .kwWhile) while_ <|
      token (.keyword .kwFor) for_ k).Leads s a c true stop := by
  simp only [List.mem_cons, List.not_mem_nil, or_false, not_or] at other
  obtain ⟨notBlock, notIf, notWhile, notFor⟩ := other
  have refuses : s.Yields .block c.position false c.position := by
    apply s.yields_refusal hs rfl
    simp [Production.form, Form.openers, Phrase.openers, notBlock]
  apply called hs refuses
  intro c' there
  rw [← there] at notIf notWhile notFor
  exact .missed notIf (.missed notWhile (.missed notFor (h _ there)))

end Command.Leads

/-! ## Statements that neither branch nor loop -/

theorem yields_plainStatement (hs : s.recalling = false)
    (ih : s.SpansBelow (14 * w.length + Production.rank .statement))
    (h : Derives s.structTypes .plainStatement w) (shown : s.tokens.Shows start w) :
    s.Yields .statement start true (start + w.length) := by
  intro c here
  subst here
  rw [← spells_eq_iff] at h
  simp only [Form.plainStatement, Form.choice, Form.keyword, Form.symbol, spells_either,
    spells_next, spells_token, List.cons_append, List.nil_append] at h
  rcases h with ⟨w, h, rfl⟩ | rfl | rfl | ⟨e, he, rfl⟩ | rfl
  · -- a block
    have spans := ih.lower .block (by decide) (Nat.le_refl _) h shown (by decide)
      (by simp [Production.extenders])
    apply Command.Leads.called hs spans
    intro c' there
    exact .finish there
  · -- `break`
    obtain ⟨first, second, -⟩ := shown
    apply Command.Leads.pastBranches hs (by rw [first]; decide)
    intro c₁ there₁
    rw [← there₁] at first second ⊢
    apply Command.Leads.taken first (by decide)
    intro c₂ there₂
    rw [← there₂] at second
    apply Command.Leads.needed second
    intro c₃ there₃
    exact .finish (by rw [there₃, there₂]; rfl)
  · -- `return`
    obtain ⟨first, second, -⟩ := shown
    apply Command.Leads.pastBranches hs (by rw [first]; decide)
    intro c₁ there₁
    rw [← there₁] at first second ⊢
    apply Command.Leads.missed (by rw [first]; decide)
    refine .taken first (by decide) ?_
    intro c₂ there₂
    rw [Cursor.position_miss] at there₂
    rw [← there₂] at second
    apply Command.Leads.needed second
    intro c₃ there₃
    exact .finish (by rw [there₃, there₂]; rfl)
  · -- an expression
    obtain ⟨kind, rest, e', mem⟩ := he.exists_opener rfl
    rw [TokenSequence.shows_append] at shown
    obtain ⟨shownExpr, closes, -⟩ := shown
    have first : s.tokens.kindAt c.position = kind := by
      rw [e'] at shownExpr
      exact shownExpr.1
    have apart : ∀ kind ∈ TokenKind.expressionOpeners, kind ∉ [.symbol .leftBrace, .keyword .kwIf,
        .keyword .kwWhile, .keyword .kwFor, .keyword .kwBreak, .keyword .kwReturn] := by decide
    have others := apart kind mem
    rw [← first] at others
    simp only [List.mem_cons, List.not_mem_nil, or_false, not_or] at others
    obtain ⟨notBlock, notIf, notWhile, notFor, notBreak, notReturn⟩ := others
    apply Command.Leads.pastBranches hs (by simp [notBlock, notIf, notWhile, notFor])
    intro c₁ there₁
    rw [← there₁] at shownExpr closes notBreak notReturn ⊢
    have spans := ih.lower .expression (by decide) (by simp) he shownExpr (by decide)
      (by rw [closes]; decide)
    refine .missed notBreak (.missed notReturn (.called hs spans ?_))
    intro c₂ there₂
    rw [← there₂] at closes
    apply Command.Leads.needed closes
    intro c₃ there₃
    apply Command.Leads.finish
    rw [there₃, there₂, List.length_append]
    rfl
  · -- nothing
    obtain ⟨first, -⟩ := shown
    apply Command.Leads.pastBranches hs (by rw [first]; decide)
    intro c₁ there₁
    rw [← there₁] at first ⊢
    have refuses : s.Yields .expression c₁.position false c₁.position :=
      s.yields_refusal hs rfl (by rw [first]; decide)
    apply Command.Leads.missed (by rw [first]; decide)
    apply Command.Leads.missed (by rw [Cursor.position_miss, first]; decide)
    refine .called hs refuses ?_
    intro c₂ there₂
    rw [← there₂] at first
    apply Command.Leads.taken first (by decide)
    intro c₃ there₃
    exact .finish (by rw [there₃, there₂]; rfl)

/-! ## Loops and branches -/

/-- A statement inside another is spanned where no `else` follows that it could take. -/
theorem Setting.SpansBelow.statement {n : Nat} (ih : s.SpansBelow (14 * w.length + n))
    (less : v.length < w.length) {closed : Bool} (h : Nested s.structTypes closed v) {i : Nat}
    (shown : s.tokens.Shows i v)
    (beyond : s.tokens.kindAt (i + v.length) = .keyword .kwElse → closed = true) :
    s.Yields .statement i true (i + v.length) := by
  have bound := Production.statement.rank_lt
  apply ih .statement v i (by omega) h.derives shown
  intro isElse
  rw [← beyond isElse]
  exact h

theorem yields_while (hs : s.recalling = false) {cond : List TokenKind}
    (ih : s.SpansBelow (14 * w.length + Production.rank .statement))
    (less : cond.length < w.length)
    (hCond : Derives s.structTypes (.parenthesized (.phrase .expression)) cond)
    (shown : s.tokens.Shows start (.keyword .kwWhile :: cond))
    (body : s.Yields .statement (start + 1 + cond.length) true stop) :
    s.Yields .statement start true stop := by
  intro c here
  subst here
  obtain ⟨first, shownCond⟩ := shown
  have refuses : s.Yields .block c.position false c.position :=
    s.yields_refusal hs rfl (by rw [first]; decide)
  apply Command.Leads.called hs refuses
  intro c₁ there₁
  rw [← there₁] at first shownCond body
  apply Command.Leads.missed (by rw [first]; decide)
  refine .taken first (by decide) ?_
  intro c₂ there₂
  rw [Cursor.position_miss] at there₂
  rw [← there₂] at shownCond body
  apply Command.Leads.parenthesized hs ih less hCond rfl rfl rfl shownCond
  intro c₃ there₃
  rw [← there₃] at body
  apply Command.Leads.called hs body
  intro c₄ there₄
  exact .finish there₄

theorem yields_for (hs : s.recalling = false)
    (shown : s.tokens.Shows start [.keyword .kwFor, .symbol .leftParen, .symbol .semicolon,
      .symbol .semicolon, .symbol .rightParen])
    (body : s.Yields .statement (start + 5) true stop) : s.Yields .statement start true stop := by
  intro c here
  subst here
  obtain ⟨first, opens, mark₁, mark₂, closes, -⟩ := shown
  have refuses : s.Yields .block c.position false c.position :=
    s.yields_refusal hs rfl (by rw [first]; decide)
  apply Command.Leads.called hs refuses
  intro c₁ there₁
  rw [← there₁] at first opens mark₁ mark₂ closes body
  apply Command.Leads.missed (by rw [first]; decide)
  apply Command.Leads.missed (by rw [Cursor.position_miss, first]; decide)
  refine .taken first (by decide) ?_
  intro c₂ there₂
  rw [Cursor.position_miss, Cursor.position_miss] at there₂
  rw [← there₂] at opens mark₁ mark₂ closes
  apply Command.Leads.needed opens
  intro c₃ there₃
  rw [← there₃] at mark₁ mark₂ closes
  apply Command.Leads.needed mark₁
  intro c₄ there₄
  rw [← there₄] at mark₂ closes
  apply Command.Leads.needed mark₂
  intro c₅ there₅
  rw [← there₅] at closes
  apply Command.Leads.needed closes
  intro c₆ there₆
  have at₆ : c₆.position = c₁.position + 5 := by omega
  rw [← at₆] at body
  apply Command.Leads.called hs body
  intro c₇ there₇
  exact .finish there₇

theorem yields_loop (hs : s.recalling = false)
    (ih : s.SpansBelow (14 * (u ++ v).length + Production.rank .statement))
    (hu : Derives s.structTypes .loopHead u) {closed : Bool} (hv : Nested s.structTypes closed v)
    (shown : s.tokens.Shows start (u ++ v))
    (beyond : s.tokens.kindAt (start + (u ++ v).length) = .keyword .kwElse → closed = true) :
    s.Yields .statement start true (start + (u ++ v).length) := by
  have nonempty : 0 < u.length := by
    obtain ⟨kind, rest, rfl, -⟩ := hu.exists_opener rfl
    simp
  have length : (u ++ v).length = u.length + v.length := List.length_append
  rw [TokenSequence.shows_append] at shown
  obtain ⟨shownHead, shownBody⟩ := shown
  have body : s.Yields .statement (start + u.length) true (start + (u ++ v).length) := by
    rw [length, ← Nat.add_assoc] at beyond ⊢
    exact ih.statement (by omega) hv shownBody beyond
  rw [← spells_eq_iff] at hu
  simp only [Form.loopHead, Form.keyword, Form.symbol, spells_either, spells_next, spells_token,
    List.cons_append, List.nil_append] at hu
  rcases hu with ⟨cond, hCond, rfl⟩ | ⟨marks, hMarks, rfl⟩
  · rw [List.length_cons] at length
    have after : start + 1 + cond.length = start + (TokenKind.keyword .kwWhile :: cond).length := by
      rw [List.length_cons]
      omega
    rw [← after] at body
    exact yields_while hs ih (by omega) hCond shownHead body
  · obtain ⟨inner, hInner, rfl⟩ := derives_parenthesized_iff.mp hMarks
    rw [← spells_eq_iff] at hInner
    simp only [spells_next, spells_token] at hInner
    subst hInner
    exact yields_for hs shownHead body

/-- What `if` and its condition leave to do, past the tokens and the statements
that are tried first. -/
theorem Command.Leads.branch (hs : s.recalling = false) {n : Nat}
    (ih : s.SpansBelow (14 * w.length + n)) {cond : List TokenKind} (less : cond.length < w.length)
    (hCond : Derives s.structTypes (.parenthesized (.phrase .expression)) cond)
    (shown : s.tokens.Shows c.position (.keyword .kwIf :: cond))
    {afterBranch otherwise : Command}
    (rest : ∀ c' : Cursor, c'.position = c.position + 1 + cond.length →
      (Command.needPart .ifBranch afterBranch).Leads s a c' true stop) :
    (Command.call .block .accept <| .token (.keyword .kwIf)
      (.need .ifOpen <| .needPart .ifCondition <| .need .ifClose <| .needPart .ifBranch afterBranch)
      otherwise).Leads s a c true stop := by
  obtain ⟨first, shownCond⟩ := shown
  have refuses : s.Yields .block c.position false c.position :=
    s.yields_refusal hs rfl (by rw [first]; decide)
  apply Command.Leads.called hs refuses
  intro c₁ there₁
  rw [← there₁] at first
  apply Command.Leads.taken first (by decide)
  intro c₂ there₂
  rw [there₁] at there₂
  rw [← there₂] at shownCond
  apply Command.Leads.parenthesized hs ih less hCond rfl rfl rfl shownCond
  intro c₃ there₃
  apply rest
  rw [there₃, there₂]

theorem yields_statement_of_nested (hs : s.recalling = false)
    (ih : s.SpansBelow (14 * w.length + Production.rank .statement)) {closed : Bool}
    (h : Nested s.structTypes closed w) (shown : s.tokens.Shows start w)
    (beyond : s.tokens.kindAt (start + w.length) = .keyword .kwElse → closed = true) :
    s.Yields .statement start true (start + w.length) := by
  cases h with
  | plain h => exact yields_plainStatement hs ih h shown
  | loop hHead hBody => exact yields_loop hs ih hHead hBody shown beyond
  | @ifThen cond w hCond hBranch =>
    intro c here
    subst here
    have length : (TokenKind.keyword .kwIf :: (cond ++ w)).length =
        cond.length + w.length + 1 := by
      rw [List.length_cons, List.length_append]
    rw [← List.cons_append, TokenSequence.shows_append, List.length_cons, ← Nat.add_assoc] at shown
    obtain ⟨shownIf, shownBranch⟩ := shown
    apply Command.Leads.branch hs ih (by omega) hCond shownIf
    intro c₁ there₁
    have at₁ : c.position + cond.length + 1 = c₁.position := by omega
    have stop : c₁.position + w.length =
        c.position + (TokenKind.keyword .kwIf :: (cond ++ w)).length := by omega
    rw [← stop] at beyond ⊢
    rw [at₁] at shownBranch
    have branch := ih.statement (by omega) hBranch shownBranch beyond
    apply Command.Leads.called hs branch
    intro c₂ there₂
    refine .missed ?_ (.finish there₂)
    rw [there₂]
    intro isElse
    exact Bool.noConfusion (beyond isElse)
  | @ifElse _ cond v w hCond hBranch hOther =>
    intro c here
    subst here
    have length : (TokenKind.keyword .kwIf :: (cond ++ (v ++ .keyword .kwElse :: w))).length =
        cond.length + v.length + w.length + 2 := by
      simp only [List.length_cons, List.length_append]
      omega
    rw [← List.cons_append, TokenSequence.shows_append, TokenSequence.shows_append,
      List.length_cons, ← Nat.add_assoc] at shown
    obtain ⟨shownIf, shownBranch, isElse, shownOther⟩ := shown
    apply Command.Leads.branch hs ih (by omega) hCond shownIf
    intro c₁ there₁
    have at₁ : c.position + cond.length + 1 = c₁.position := by omega
    rw [at₁] at shownBranch isElse shownOther
    have branch := ih.statement (by omega) hBranch shownBranch fun _ => rfl
    apply Command.Leads.called hs branch
    intro c₂ there₂
    rw [← there₂] at isElse shownOther
    apply Command.Leads.taken isElse (by decide)
    intro c₃ there₃
    have stop : c₃.position + w.length =
        c.position + (TokenKind.keyword .kwIf :: (cond ++ (v ++ .keyword .kwElse :: w))).length := by
      omega
    rw [← stop] at beyond ⊢
    rw [← there₃] at shownOther
    have other := ih.statement (by omega) hOther shownOther beyond
    apply Command.Leads.called hs other
    intro c₄ there₄
    exact .finish there₄

end AtomFrontEnd

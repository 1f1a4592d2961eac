import AtomFrontEnd.Proofs.Soundness

/-!
From an operand through the levels of operators.

A disjunction is read by going down the six levels to a cast, and then up again: each level
goes on after the operand below it as long as its operators follow. What is read on the way
up begins where the cast has ended (`Setting.Operates`). Nothing of this is remembered, so a
level can be taken apart in every setting (`Run.exists_cast`).
-/

namespace AtomFrontEnd

variable {s : Setting} {a : Activation} {c c' d : Cursor} {o o' : Outcome} {p : Production}
  {hit miss : Command} {l : Level}

/-! ## Operators -/

/-- An operand has come to the outcome `o` with the cursor `c`; operators of any levels, with
their right operands, go on from there. They follow only what has matched. -/
inductive Setting.Operates (s : Setting) (o : Outcome) (c : Cursor) : Outcome → Cursor → Prop where
  | done : s.Operates o c o c
  | more {l : Level} {c' d : Cursor} {o' : Outcome} : s.Operates o c (.finished true) c' →
    Run s ⟨.moreOperands l, c'.position⟩ (rules s.structTypes (.moreOperands l)) c' o' d →
    s.Operates o c o' d

/-- What a level joins begins with an operand of the level, and operators go on from there. -/
theorem Run.exists_operand
    (h : Run s ⟨.binary l, c.position⟩ (rules s.structTypes (.binary l)) c o d) :
    ∃ o₁ c₁, Run s ⟨l.operand, c.position⟩ (rules s.structTypes l.operand) c o₁ c₁ ∧
      ∀ o₀ c₀, s.Operates o₀ c₀ o₁ c₁ → s.Operates o₀ c₀ o d := by
  have notUnary : l.operand ≠ .unary := by cases l <;> decide
  rcases h.cases_of_call (fun _ => notUnary) with ⟨t, cause, rfl, body⟩ | ⟨answer, c₁, body, rest⟩
  · exact ⟨_, d, body, fun _ _ operates => operates⟩
  · cases answer with
    | true =>
      have more := rest.body_of_become (fun _ => by simp)
      exact ⟨_, c₁, body, fun _ _ operates => operates.more more⟩
    | false =>
      cases rest
      exact ⟨_, _, body, fun _ _ operates => operates⟩

theorem Run.exists_cast
    (h : Run s ⟨.binary .disjunction, c.position⟩ (rules s.structTypes (.binary .disjunction)) c o d) :
    ∃ o₁ c₁, Run s ⟨.cast, c.position⟩ (rules s.structTypes .cast) c o₁ c₁ ∧
      s.Operates o₁ c₁ o d := by
  obtain ⟨_, _, conjunction, up₁⟩ := h.exists_operand
  obtain ⟨_, _, equality, up₂⟩ := conjunction.exists_operand (l := .conjunction)
  obtain ⟨_, _, relation, up₃⟩ := equality.exists_operand (l := .equality)
  obtain ⟨_, _, sum, up₄⟩ := relation.exists_operand (l := .relation)
  obtain ⟨_, _, product, up₅⟩ := sum.exists_operand (l := .sum)
  obtain ⟨o₁, c₁, cast, up₆⟩ := product.exists_operand (l := .product)
  exact ⟨o₁, c₁, cast, up₁ _ _ (up₂ _ _ (up₃ _ _ (up₄ _ _ (up₅ _ _ (up₆ _ _ .done)))))⟩

theorem Setting.Operates.eq_of_ne (h : s.Operates o c o' d) (unmatched : o ≠ .finished true) :
    o' = o ∧ d = c := by
  induction h with
  | done => exact ⟨rfl, rfl⟩
  | more _ _ ih => exact absurd ih.1.symm unmatched

theorem Setting.Operates.ne_refused (h : s.Operates o c o' d) (notRefused : o ≠ .finished false) :
    o' ≠ .finished false := by
  cases h with
  | done => exact notRefused
  | more _ rest => exact rest.ne_refused rfl

theorem Setting.Operates.position_le (hs : s.recalling = false) (h : s.Operates o c o' d) :
    c.position ≤ d.position := by
  induction h with
  | done => exact Nat.le_refl _
  | more _ rest ih => exact Nat.le_trans ih (rest.start_le hs)

theorem Command.Leads.noneOf {kinds : List TokenKind} {matched : Bool} {stop : Nat}
    (other : s.tokens.kindAt c.position ∉ kinds)
    (h : ∀ c' : Cursor, c'.position = c.position → miss.Leads s a c' matched stop) :
    (oneOf kinds hit miss).Leads s a c matched stop := by
  induction kinds generalizing c with
  | nil => exact h c rfl
  | cons kind kinds ih =>
    rw [List.mem_cons, not_or] at other
    exact .missed other.1 (ih other.2 h)

theorem leads_moreOperands (other : s.tokens.kindAt c.position ∉ l.operators) :
    (rules s.structTypes (.moreOperands l)).Leads s a c true c.position :=
  .noneOf other fun _ here => .finish here

/-- Where no operator of any level follows, there are none. -/
theorem Setting.Operates.eq_of_none (h : s.Operates o c o' d)
    (none : ∀ l : Level, s.tokens.kindAt c.position ∉ l.operators) :
    o' = o ∧ d.position = c.position := by
  induction h with
  | done => exact ⟨rfl, rfl⟩
  | @more l c' d o' _ rest ih =>
    obtain ⟨matched, here⟩ := ih
    have other := none l
    rw [← here] at other
    obtain ⟨e, there⟩ := leads_moreOperands other _ _ rest
    exact ⟨e.trans matched, there.trans here⟩

end AtomFrontEnd

import AtomFrontEnd.Proofs.Language
import Mathlib.Tactic.Tauto

/-!
To which `if` an `else` belongs.

The grammar lets an `else` belong to any open `if` before it, so that a statement
may be derived in several ways; a recognizer gives it to the nearest.
`Nested closed w` derives the statement `w` in the recognizer's way, and it says
further whether an `else` that follows cannot belong to `w`. Every statement can
be derived so (`nested_of_derives`): an `else` that was given to a farther `if`
is moved in (`Nested.absorbs`).
-/

namespace AtomFrontEnd

/-- A statement that neither branches nor loops. -/
def Form.plainStatement : Form :=
  choice (phrase .block)
    [next (keyword .kwBreak) (symbol .semicolon), next (keyword .kwReturn) (symbol .semicolon),
      next (phrase .expression) (symbol .semicolon), symbol .semicolon]

/-- What stands in a loop before the repeated statement. -/
def Form.loopHead : Form :=
  either (next (keyword .kwWhile) (parenthesized (phrase .expression)))
    (next (keyword .kwFor) (parenthesized (next (symbol .semicolon) (symbol .semicolon))))

/-- A statement each of whose `else` belongs to the nearest `if`; a closed one has
no `if` left to which an `else` after it could belong. -/
inductive Nested (structTypes : Bool) : Bool → List TokenKind → Prop where
  | plain {closed : Bool} {w : List TokenKind} :
    Derives structTypes .plainStatement w → Nested structTypes closed w
  | loop {closed : Bool} {head w : List TokenKind} :
    Derives structTypes .loopHead head → Nested structTypes closed w →
    Nested structTypes closed (head ++ w)
  | ifThen {cond w : List TokenKind} :
    Derives structTypes (.parenthesized (.phrase .expression)) cond →
    Nested structTypes false w → Nested structTypes false (.keyword .kwIf :: (cond ++ w))
  | ifElse {closed : Bool} {cond v w : List TokenKind} :
    Derives structTypes (.parenthesized (.phrase .expression)) cond →
    Nested structTypes true v → Nested structTypes closed w →
    Nested structTypes closed (.keyword .kwIf :: (cond ++ (v ++ .keyword .kwElse :: w)))

variable {b : Bool} {w : List TokenKind}

theorem spells_statement {P : List TokenKind → Prop} :
    (Form.phrase .statement).Spells b P ↔
      Form.plainStatement.Spells b P ∨
      (Form.next .loopHead (.phrase .statement)).Spells b P ∨
      (Form.next (.keyword .kwIf) <| .next (.parenthesized (.phrase .expression)) <|
        .next (.phrase .statement) <| .optional <| .next (.keyword .kwElse) <|
        .phrase .statement).Spells b P := by
  rw [spells_phrase]
  simp [grammar, Form.plainStatement, Form.loopHead, Form.choice, Form.sequence, Form.keyword,
    Form.symbol, Form.parenthesized, Form.optional]
  tauto

/-- A statement is closed, or an `else` after it and one more statement make it a
longer one. -/
theorem Nested.absorbs (h : Nested b false w) :
    Nested b true w ∨ ∀ v, Nested b false v → Nested b false (w ++ .keyword .kwElse :: v) := by
  generalize e : false = closed at h
  induction h with
  | plain h => exact .inl (.plain h)
  | loop head _ ih =>
    rcases ih e with closed | absorb
    · exact .inl (.loop head closed)
    · refine .inr ?_
      intro v hv
      rw [List.append_assoc]
      exact .loop head (absorb v hv)
  | ifThen cond _ ih =>
    refine .inr ?_
    intro v hv
    rw [List.cons_append, List.append_assoc]
    rcases ih rfl with closed | absorb
    · exact .ifElse cond closed hv
    · exact .ifThen cond (absorb v hv)
  | ifElse cond then_ _ _ ih =>
    rcases ih e with closed | absorb
    · exact .inl (.ifElse cond then_ closed)
    · refine .inr ?_
      intro v hv
      simp only [List.cons_append, List.append_assoc]
      exact .ifElse cond then_ (absorb v hv)

/-- Every statement can be derived with each `else` at the nearest `if`. -/
theorem nested_of_derives (h : Derives b (.phrase .statement) w) : Nested b false w := by
  induction n : w.length using Nat.strongRecOn generalizing w with
  | _ n ih =>
    subst n
    rw [← spells_eq_iff, spells_statement] at h
    rcases h with ⟨v, plain, rfl⟩ | loop | branch
    · exact .plain plain
    · rw [spells_next] at loop
      obtain ⟨head, hHead, v, hv, rfl⟩ := loop
      have nonempty : 0 < head.length := by
        cases hHead with
        | first h | second h =>
          cases h with
          | next hu _ =>
            cases hu
            simp
      exact .loop hHead (ih _ (by simp only [List.length_append]; omega) hv rfl)
    · simp only [spells_next, Form.keyword, spells_token, Form.optional, spells_either,
        spells_empty] at branch
      obtain ⟨cond, hCond, v, hv, h⟩ := branch
      rcases h with ⟨u, hu, rfl⟩ | rfl
      · have first := ih _ (by simp only [List.length_append, List.length_cons, List.length_nil]; omega) hv rfl
        have second := ih _ (by simp only [List.length_append, List.length_cons, List.length_nil]; omega) hu rfl
        simp only [List.singleton_append]
        rcases first.absorbs with closed | absorb
        · exact .ifElse hCond closed second
        · exact .ifThen hCond (absorb u second)
      · simp only [List.append_nil, List.singleton_append]
        exact .ifThen hCond (ih _ (by simp only [List.length_append, List.length_cons, List.length_nil]; omega) hv rfl)

theorem Nested.derives {closed : Bool} (h : Nested b closed w) :
    Derives b (.phrase .statement) w := by
  induction h with
  | plain h => exact spells_eq_iff.mp (spells_statement.mpr (.inl ⟨_, h, rfl⟩))
  | loop head _ ih =>
    exact spells_eq_iff.mp (spells_statement.mpr (.inr (.inl ⟨_, .next head ih, rfl⟩)))
  | ifThen cond _ ih =>
    refine spells_eq_iff.mp (spells_statement.mpr (.inr (.inr ⟨_, ?_, rfl⟩)))
    exact .next (.token _) (.next cond (by simpa [Form.optional] using Derives.next ih (.second .empty)))
  | ifElse cond _ _ ih₁ ih₂ =>
    refine spells_eq_iff.mp (spells_statement.mpr (.inr (.inr ⟨_, ?_, rfl⟩)))
    exact .next (.token _) (.next cond (.next ih₁ (.first (.next (.token _) ih₂))))

end AtomFrontEnd

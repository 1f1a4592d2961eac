import AtomFrontEnd.Proofs.Assignment
import AtomFrontEnd.Proofs.Branching
import AtomFrontEnd.Proofs.Declaration

/-!
Every production spans what its form describes.

Wherever the kinds of a phrase stand and are over (`Production.Over`), the
recognizer, called there, matches them and nothing more (`yields_of_derives`).
Most productions look one token ahead, and `Command.leads_of_predictive` is
enough. The others have been carried out step by step: functions and variables
begin alike, a parenthesis may open a cast, an `else` may belong to an `if` inside,
and what stands before `=` is first read as an operand, perhaps in vain.
-/

namespace AtomFrontEnd

variable {s : Setting} {p : Production} {start : Nat} {w : List TokenKind} {a : Activation}
  {c : Cursor}

/-! ## Units -/

theorem leads_unit_end (hs : s.recalling = false) (here : s.tokens.kindAt c.position = .endOfInput) :
    (rules s.structTypes .unit).Leads s a c true c.position := by
  have refuses : ∀ q : Production, q.selective = true →
      .endOfInput ∉ q.form.openers true → s.Yields q c.position false c.position := by
    intro q selective notOpener
    apply s.yields_refusal hs selective
    rw [here]
    exact notOpener
  have noStruct := refuses .structDef rfl (by decide)
  have noFunc := refuses .funcDef rfl (by decide)
  have noVar := refuses .varDef rfl (by decide)
  apply Command.Leads.called hs noStruct
  intro c₁ there₁
  rw [← there₁] at noFunc noVar here ⊢
  apply Command.Leads.called hs noFunc
  intro c₂ there₂
  rw [← there₂] at noVar here ⊢
  apply Command.Leads.called hs noVar
  intro c₃ there₃
  rw [← there₃] at here ⊢
  apply Command.Leads.ended here
  exact .finish rfl

theorem yields_unit (hs : s.recalling = false)
    (ih : s.SpansBelow (14 * w.length + Production.rank .unit))
    (h : Derives s.structTypes (.many .declaration) w) (shown : s.tokens.Shows start w)
    (beyond : s.tokens.kindAt (start + w.length) = .endOfInput) :
    s.Yields .unit start true (start + w.length) := by
  intro c here
  subst here
  rw [← spells_eq_iff, spells_many] at h
  rcases h with ⟨v, hv, u, hu, rfl⟩ | rfl
  · rw [TokenSequence.shows_append] at shown
    obtain ⟨shownFirst, shownRest⟩ := shown
    have nonempty : 0 < v.length := by
      obtain ⟨kind, rest, rfl, -⟩ := hv.exists_opener rfl
      simp
    have length : (v ++ u).length = v.length + u.length := List.length_append
    apply leads_declaration hs ih (by omega) hv shownFirst
    intro c₁ there₁
    have stop : c₁.position + u.length = c.position + (v ++ u).length := by omega
    rw [← stop] at beyond ⊢
    rw [← there₁] at shownRest
    apply Command.Leads.become hs
    exact ih .unit u c₁.position (by omega) hu shownRest beyond
  · exact leads_unit_end hs beyond

/-! ## All productions -/

/-- Sequences of every size are spanned wherever they stand and are over, if nothing
is remembered. -/
theorem Setting.spansBelow (hs : s.recalling = false) (n : Nat) : s.SpansBelow n := by
  induction n with
  | zero =>
    intro q v i less
    exact absurd less (Nat.not_lt_zero _)
  | succ n ih =>
    intro q v i less h shown beyond
    have below : s.SpansBelow (14 * v.length + q.rank) := by
      intro q' v' i' less'
      exact ih q' v' i' (by omega)
    cases q with
    | unit => exact yields_unit hs below h shown beyond
    | funcDef => exact yields_funcDef hs below h shown
    | cast => exact yields_cast hs below h shown beyond
    | expression => exact yields_expression hs below h shown beyond
    | statement =>
      by_cases isElse : s.tokens.kindAt (i + v.length) = .keyword .kwElse
      · exact yields_statement_of_nested hs below (beyond isElse) shown fun _ => rfl
      · apply yields_statement_of_nested hs below (nested_of_derives h) shown
        intro isElse'
        exact absurd isElse' isElse
    | _ =>
      intro c here
      rw [← admits_rules_iff] at h
      apply Command.leads_of_predictive hs below shown beyond (predictive_rules _ _ rfl) h _ here
      intro moved
      cases moved

/-- Whatever the form of a production describes is spanned where it stands and is
over, if nothing is remembered. -/
theorem yields_of_derives (hs : s.recalling = false) (h : Derives s.structTypes p.form w)
    (shown : s.tokens.Shows start w)
    (beyond : p.Over s.structTypes w (s.tokens.kindAt (start + w.length))) :
    s.Yields p start true (start + w.length) :=
  s.spansBelow hs _ p w start (Nat.lt_succ_self _) h shown beyond

end AtomFrontEnd

import AtomFrontEnd.Proofs.Operators
import AtomFrontEnd.Proofs.Exactness

/-!
The operand before a possible `=` is looked for in vain without harm.

An expression tries `unary` first, and goes on from there if `=` follows; otherwise it goes
back and reads a disjunction at the same place. Neither the operand nor its failure is lost by
this: the disjunction begins with a cast, and a cast comes out as `unary` does at its place,
unless it is a type in parentheses, where `unary` refuses (`Run.cast_or_unary`).

All this can be seen without a memory. A run that remembers goes beside one that does not as
long as what is remembered is true (`Cursor.Truthful`, `Run.remembering`), so it holds with
any true memory as well (`unary_accords_with_disjunction`).
-/

namespace AtomFrontEnd

variable {s : Setting} {a : Activation} {k : Command} {b b' c c' d : Cursor} {o o' : Outcome}
  {p : Production} {matched : Bool}

/-! ## Runs from one position -/

theorem Run.yields (hs : s.recalling = false)
    (h : Run s ⟨p, c.position⟩ (rules s.structTypes p) c (.finished matched) d) :
    s.Yields p c.position matched d.position := by
  intro b here o d' run
  obtain ⟨rfl, there⟩ := h.agrees hs run here.symm
  exact ⟨rfl, there.symm⟩

theorem Run.become (hs : s.recalling = false)
    (h : Run s ⟨p, c.position⟩ (rules s.structTypes p) c o d) : Run s a (.become p) c o d := by
  cases o with
  | finished matched =>
    refine .called hs h ?_
    cases matched with
    | true => exact .finish
    | false => exact .finish
  | failed t cause => exact .aborted (Cursor.lookup_of_forgetful hs ..) h

/-! ## True memories -/

/-- What the cursor remembers of a `unary` production is what the production does where it is
called and nothing is remembered. -/
def Cursor.Truthful (s : Setting) (c : Cursor) : Prop :=
  ∀ (start : Nat) (result : Option Nat), c.known[start]? = some result →
    s.forgetful.Yields .unary start result.isSome (result.getD start)

namespace Cursor.Truthful

theorem advance (h : c.Truthful s) (kind : TokenKind) : (c.advance kind).Truthful s := by
  intro start result known
  rw [known_advance] at known
  exact h _ _ known

theorem miss (h : c.Truthful s) : c.miss.Truthful s := h

theorem rewind (h : c.Truthful s) (start : Nat) : (c.rewind start).Truthful s := by
  intro start result known
  rw [known_rewind] at known
  exact h _ _ known

theorem record (h : c.Truthful s) (there : c.position = d.position)
    (body : Run s.forgetful ⟨p, b.position⟩ (rules s.structTypes p) b (.finished matched) d) :
    (c.record s ⟨p, b.position⟩ matched).Truthful s := by
  unfold Cursor.record
  split
  · rename_i isUnary
    obtain rfl : p = .unary := isUnary.2
    intro start result known
    simp only [Std.TreeMap.getElem?_insert] at known
    split at known
    · rename_i same
      rw [Nat.compare_eq_eq] at same
      subst same
      obtain rfl := Option.some.inj known
      have yields := Run.yields (s := s.forgetful) rfl body
      cases matched with
      | true =>
        rw [← there] at yields
        exact yields
      | false =>
        rw [Run.position_of_refused (s := s.forgetful) rfl body] at yields
        exact yields
    · exact h _ _ known
  · exact h

end Cursor.Truthful

/-- Beside every run that does not remember there is one that does, from each cursor that
stands at the same place with a true memory. -/
theorem Run.remembering (h : Run s.forgetful a k b o b') (here : c.position = b.position)
    (truthful : c.Truthful s) :
    ∃ c', Run s a k c o c' ∧ c'.position = b'.position ∧ c'.Truthful s := by
  induction h generalizing c with
  | finish => exact ⟨c, .finish, here, truthful⟩
  | fail =>
    refine ⟨c, ?_, here, truthful⟩
    rw [← here]
    exact .fail
  | @taken a kind hit miss b o b' stands _ ih =>
    have there : (c.advance kind).position = (b.advance kind).position := by
      unfold Cursor.advance
      split <;> simp [here]
    obtain ⟨c', run, rest⟩ := ih there (truthful.advance kind)
    exact ⟨c', .taken (here ▸ stands) run, rest⟩
  | missed other _ ih =>
    obtain ⟨c', run, rest⟩ := ih (c := c.miss) here truthful.miss
    exact ⟨c', .missed (here ▸ other) run, rest⟩
  | @rewound a _ _ _ _ _ ih =>
    have there := Cursor.position_rewind a.start c
    obtain ⟨c', run, rest⟩ := ih (there.trans (Cursor.position_rewind ..).symm) (truthful.rewind _)
    exact ⟨c', .rewound run, rest⟩
  | recalled known _ _ =>
    rw [Cursor.lookup_of_forgetful (s := s.forgetful) rfl] at known
    cases known
  | @entered a p hit miss b matched b₁ o b' _ body _ ihBody ihRest =>
    rw [Cursor.record_of_forgetful rfl] at ihRest
    cases known : c.lookup s p with
    | some result =>
      obtain ⟨answer, c₁⟩ := result
      obtain rfl := Cursor.eq_unary_of_lookup known
      obtain ⟨entry, found, rfl, rfl⟩ := Cursor.exists_of_lookup known
      obtain ⟨e, there⟩ := truthful _ _ found b here.symm _ _ (here ▸ body)
      obtain rfl := Outcome.finished.inj e
      obtain ⟨c', run, rest⟩ := ihRest (c := { c with position := entry.getD c.position })
        there.symm truthful
      exact ⟨c', .recalled known run, rest⟩
    | none =>
      obtain ⟨c₁, run₁, there, truthful₁⟩ := ihBody here truthful
      have recorded := truthful₁.record there body
      rw [← Cursor.position_record s ⟨p, b.position⟩ matched c₁] at there
      obtain ⟨c', run, rest⟩ := ihRest there recorded
      rw [← here] at run₁ run
      exact ⟨c', .entered known run₁ run, rest⟩
  | @aborted a p hit miss b t cause b' _ body ihBody =>
    cases known : c.lookup s p with
    | some result =>
      obtain ⟨answer, c₁⟩ := result
      obtain rfl := Cursor.eq_unary_of_lookup known
      obtain ⟨entry, found, -, -⟩ := Cursor.exists_of_lookup known
      exact absurd (truthful _ _ found b here.symm _ _ (here ▸ body)).1 (by simp)
    | none =>
      obtain ⟨c', run, rest⟩ := ihBody here truthful
      rw [← here] at run
      exact ⟨c', .aborted known run, rest⟩

/-! ## Operands, casts and disjunctions -/

/-- A cast comes out as `unary` does at the same place. Only where a type follows a parenthesis
it may match all the same, if that is a type indeed. -/
theorem Run.cast_or_unary (hs : s.recalling = false) {o₁ : Outcome} {c₁ : Cursor}
    (cast : Run s ⟨.cast, c.position⟩ (rules s.structTypes .cast) c o₁ c₁)
    (unary : Run s ⟨.unary, c.position⟩ (rules s.structTypes .unary) c o d) :
    (o₁ = o ∧ c₁.position = d.position) ∨
      o = .finished false ∧ (o₁ = .finished true →
        s.tokens.kindAt c.position = .symbol .leftParen ∧
          s.tokens.kindAt (c.position + 1) ∈ TokenKind.typeOpeners s.structTypes) := by
  -- wherever the cast has gone back to its start it is what `unary` is
  have resumed : ∀ c' : Cursor, c'.position = c.position →
      Run s ⟨.cast, c.position⟩ (.become .unary) c' o₁ c₁ → o₁ = o ∧ c₁.position = d.position := by
    intro c' here rest
    have body := rest.of_become hs
    rw [here] at body
    exact body.agrees hs unary here
  cases cast with
  | missed other rest => exact .inl (resumed c.miss rfl rest)
  | taken opens rest =>
    have there : (c.advance (.symbol .leftParen)).position = c.position + 1 :=
      Cursor.position_advance (by decide) c
    by_cases typed : s.tokens.kindAt (c.position + 1) ∈ TokenKind.typeOpeners true
    · obtain ⟨refused, back⟩ := yields_unary_refusal hs opens typed c rfl _ _ unary
      refine .inr ⟨refused, fun matched => ⟨opens, ?_⟩⟩
      subst matched
      obtain ⟨answer, c₂, type, rest⟩ := rest.called_of_finished hs
      cases answer with
      | true =>
        have ahead := type.start_lt hs rfl
        obtain ⟨kind, w, e, opener⟩ := (type.derives hs).exists_opener rfl
        rw [TokenSequence.slice_eq_cons ahead, there] at e
        obtain ⟨rfl, -⟩ := List.cons.inj e
        exact opener
      | false =>
        cases rest with
        | rewound rest =>
          obtain ⟨same, -⟩ := resumed _ (Cursor.position_rewind ..) rest
          rw [refused] at same
          cases same
    · have refuses : s.Yields .typeSpec (c.position + 1) false (c.position + 1) :=
        s.yields_refusal hs rfl typed
      rw [← there] at refuses
      rcases rest.cases_of_call (by simp [hs]) with ⟨t, cause, rfl, type⟩ | ⟨answer, c₂, type, rest⟩
      · exact absurd (refuses _ rfl _ _ type).1 (by simp)
      · obtain ⟨e, -⟩ := refuses _ rfl _ _ type
        obtain rfl := Outcome.finished.inj e
        cases rest with
        | rewound rest => exact .inl (resumed _ (Cursor.position_rewind ..) rest)

/-- What `unary` does from `start` to `stop` and what a disjunction does from there to `stop'` fit
together: nothing is lost if `unary` is tried first. -/
structure Setting.Accord (s : Setting) (start : Nat) (o : Outcome) (stop : Nat) (o' : Outcome)
    (stop' : Nat) : Prop where
  /-- A failure is found by both, at the same place. -/
  failed : ∀ t cause, o = .failed t cause → o' = o ∧ stop' = stop
  not_refused : o = .finished true → o' ≠ .finished false
  stop_le : o = .finished true → o' = .finished true → stop ≤ stop'
  /-- Before `=` both come to the same end. -/
  assigned : o = .finished true → s.tokens.kindAt stop = .symbol .assign →
    o' = .finished true ∧ stop' = stop
  /-- Only a cast is no operand. -/
  cast : o = .finished false → o' = .finished true →
    s.tokens.kindAt start = .symbol .leftParen ∧
      s.tokens.kindAt (start + 1) ∈ TokenKind.typeOpeners s.structTypes

theorem Setting.Accord.of_forgetful {start stop stop' : Nat}
    (h : s.forgetful.Accord start o stop o' stop') : s.Accord start o stop o' stop' :=
  ⟨h.failed, h.not_refused, h.stop_le, h.assigned, h.cast⟩

/-- Without a memory they fit together. -/
theorem Run.accord (hs : s.recalling = false)
    (unary : Run s ⟨.unary, c.position⟩ (rules s.structTypes .unary) c o d)
    (disjunction : Run s ⟨.binary .disjunction, c.position⟩
      (rules s.structTypes (.binary .disjunction)) c o' d') :
    s.Accord c.position o d.position o' d'.position := by
  obtain ⟨o₁, c₁, cast, operates⟩ := disjunction.exists_cast
  rcases cast.cast_or_unary hs unary with ⟨rfl, there⟩ | ⟨rfl, typed⟩
  · constructor
    case failed =>
      rintro t cause rfl
      obtain ⟨same, rfl⟩ := operates.eq_of_ne (by simp)
      exact ⟨same, there⟩
    case not_refused =>
      rintro rfl
      exact operates.ne_refused (by simp)
    case stop_le =>
      intro _ _
      rw [← there]
      exact operates.position_le hs
    case assigned =>
      intro matched assigns
      have noOperator : ∀ l : Level, .symbol .assign ∉ l.operators := by
        intro l
        cases l <;> decide
      rw [← there] at assigns ⊢
      rw [← assigns] at noOperator
      obtain ⟨same, stays⟩ := operates.eq_of_none noOperator
      exact ⟨same.trans matched, stays⟩
    case cast =>
      rintro rfl matched
      obtain ⟨same, -⟩ := operates.eq_of_ne (by simp)
      rw [same] at matched
      cases matched
  · have castMatched : o' = .finished true → o₁ = .finished true := by
      intro matched
      by_cases e : o₁ = .finished true
      · exact e
      · exact (operates.eq_of_ne e).1.symm.trans matched
    constructor
    case failed | not_refused | stop_le | assigned =>
      intros
      contradiction
    case cast => exact fun _ matched => typed (castMatched matched)

/-- From every position up to the first end, and with every memory that is true, `unary` and a
disjunction come to an outcome, and these fit together: a failure of the one is the failure of
the other, and leaves the cursor at the same place; where `unary` matches the disjunction does
not refuse, matches as much at least, and just as much before `=`; where `unary` refuses the
disjunction matches only a cast. -/
theorem unary_accords_with_disjunction (tokens : Array Token) (structTypes : Bool) (a : Activation)
    (c : Cursor) (inside : c.position ≤ (TokenSequence.ofArray tokens).firstEnd)
    (truthful : c.Truthful (Parser.ofTokens tokens structTypes).setting) :
    let s := (Parser.ofTokens tokens structTypes).setting
    ∃ o d o' d', Run s a (.become .unary) c o d ∧
      Run s a (.become (.binary .disjunction)) c o' d' ∧
      s.Accord c.position o d.position o' d'.position := by
  intro s
  let b : Cursor := { position := c.position }
  have sound : b.Sound s.forgetful := ⟨inside, fun known => by simp [b] at known⟩
  obtain ⟨o, e, unary, -⟩ := exists_run s.forgetful .unary b sound
  obtain ⟨o', e', disjunction, -⟩ := exists_run s.forgetful (.binary .disjunction) b sound
  have accord := (unary.accord (s := s.forgetful) rfl disjunction).of_forgetful
  have here : c.position = b.position := rfl
  obtain ⟨d, runUnary, there, -⟩ := (unary.become (a := a) rfl).remembering here truthful
  obtain ⟨d', runDisjunction, there', -⟩ :=
    (disjunction.become (a := a) rfl).remembering here truthful
  rw [← there, ← there'] at accord
  exact ⟨o, d, o', d', runUnary, runDisjunction, accord⟩

/-- A name in parentheses before `=`, of which the name is remembered as an operand. -/
theorem unary_accords_with_disjunction_parentheses :
    let tokens : Array Token := #[⟨.symbol .leftParen, "(", 1⟩, ⟨.identifier, "x", 1⟩,
      ⟨.symbol .rightParen, ")", 1⟩, ⟨.symbol .assign, "=", 1⟩, ⟨.literal .integer, "1", 1⟩]
    let s := (Parser.ofTokens tokens false).setting
    let c : Cursor := { known := (∅ : Std.TreeMap Nat (Option Nat)).insert 1 (some 2) }
    c.position ≤ (TokenSequence.ofArray tokens).firstEnd ∧ c.Truthful s ∧
      ∃ o d o' d', Run s ⟨.expression, 0⟩ (.become .unary) c o d ∧
        Run s ⟨.expression, 0⟩ (.become (.binary .disjunction)) c o' d' ∧
        s.Accord 0 o d.position o' d'.position := by
  intro tokens s c
  have inside : c.position ≤ (TokenSequence.ofArray tokens).firstEnd := by decide
  have name : Derives false (.phrase .unary) ([.identifier] ++ [] ++ []) :=
    .phrase (.second (.phrase (.next (.phrase (.first (.next (.token _) (.second .empty)))) .none)))
  have truthful : c.Truthful s := by
    intro start result known
    simp only [c, Std.TreeMap.getElem?_insert] at known
    split at known
    · rename_i same
      rw [Nat.compare_eq_eq] at same
      subst same
      obtain rfl := Option.some.inj known
      have shown : s.tokens.Shows 1 [.identifier] := ⟨rfl, trivial⟩
      have beyond : s.tokens.kindAt 2 ∉ Production.extenders .unary := by decide
      exact yields_of_derives (s := s.forgetful) (p := .unary) rfl name shown beyond
    · simp at known
  exact ⟨inside, truthful, unary_accords_with_disjunction tokens false _ c inside truthful⟩

end AtomFrontEnd

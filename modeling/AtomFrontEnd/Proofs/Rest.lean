import AtomFrontEnd.Proofs.Independence
import AtomFrontEnd.Proofs.Reachable

/-!
Where the cursor comes to rest.

A unit that matches has taken all tokens before the first end, and one that fails stops where
it fails. One that stalls has taken declarations, round by round, and none begins where it
stands. Each round of a unit looks for one declaration (`Setting.Traces.firstOf`), and one that
is found leaves no missed token at its end or beyond, so what has been missed before the last
round lies before its place (`Setting.Traces.exists_last_round`). In the last round two tokens
after the place are seen at most: a function whose type is `struct` with a name would see a
third, but only after its own name, and then a variable is found or fails
(`Run.farthestMiss_of_stalled`).
-/

namespace AtomFrontEnd

variable {s : Setting} {t u : State} {before : List State} {a : Activation} {k hit miss : Command}
  {b c d : Cursor} {o : Outcome} {p : Production} {matched : Bool} {pending : List Pending}

/-! ## The way to a state -/

/-- The states that a parse goes through before a state, the latest first. -/
inductive Setting.Traces (s : Setting) : List State → State → Prop where
  | start : s.Traces [] (.call s .unit {})
  | next {before : List State} {t u : State} : s.Traces before t → t.step s = .inl u →
    s.Traces (t :: before) u

/-- In the state a token is looked for that does not stand there. -/
def State.Misses (s : Setting) (t : State) : Prop :=
  ∃ kind hit miss, t.command = .token kind hit miss ∧ s.tokens.kindAt t.cursor.position ≠ kind

theorem Setting.Traces.reaches (h : s.Traces before t) : s.Reaches t := by
  induction h with
  | start => exact .start
  | next _ e ih => exact ih.next e

theorem Setting.Reaches.exists_traces (h : s.Reaches t) : ∃ before, s.Traces before t := by
  induction h with
  | start => exact ⟨[], .start⟩
  | next _ e ih =>
    obtain ⟨before, traces⟩ := ih
    exact ⟨_, traces.next e⟩

theorem State.Moves.farthestMiss_le (h : State.Moves s t u) :
    t.cursor.farthestMiss ≤ u.cursor.farthestMiss := by
  cases h with
  | returned => exact Nat.le_of_eq (Cursor.farthestMiss_record ..).symm
  | taken => exact Nat.le_of_eq (Cursor.farthestMiss_advance ..).symm
  | missed => exact Nat.le_max_left ..
  | recalled known => exact Nat.le_of_eq (Cursor.farthestMiss_of_lookup known).symm
  | entered => exact Nat.le_refl _
  | rewound => exact Nat.le_of_eq (Cursor.farthestMiss_rewind ..).symm

theorem State.Moves.position_le_of_misses (h : State.Moves s t u) (missed : t.Misses s) :
    t.cursor.position ≤ u.cursor.farthestMiss := by
  obtain ⟨kind, hit, miss, e, other⟩ := missed
  cases h with
  | taken here =>
    cases e
    exact absurd here other
  | missed => exact Nat.le_max_right ..
  | _ => cases e

theorem Setting.Traces.position_le (h : s.Traces before u) :
    ∀ t ∈ before, t.Misses s → t.cursor.position ≤ u.cursor.farthestMiss := by
  induction h with
  | start => simp
  | @next before t u _ e ih =>
    have move := State.step_eq_inl_iff.mp e
    intro v mem missed
    rcases List.mem_cons.mp mem with rfl | mem
    · exact move.position_le_of_misses missed
    · exact Nat.le_trans (ih v mem missed) move.farthestMiss_le

theorem Run.exists_traces (h : Run s a k c o d) (traces : s.Traces before ⟨a, k, c, pending⟩)
    (finished : o = .finished matched) :
    ∃ before', s.Traces before' ⟨a, .finish matched, d, pending⟩ := by
  induction h generalizing before pending matched with
  | finish =>
    obtain rfl := Outcome.finished.inj finished
    exact ⟨before, traces⟩
  | fail => cases finished
  | taken here _ ih =>
    exact ih (traces.next (State.step_eq_inl_iff.mpr (.taken here))) finished
  | missed other _ ih =>
    exact ih (traces.next (State.step_eq_inl_iff.mpr (.missed other))) finished
  | rewound _ ih => exact ih (traces.next (State.step_eq_inl_iff.mpr .rewound)) finished
  | recalled known _ ih =>
    exact ih (traces.next (State.step_eq_inl_iff.mpr (.recalled known))) finished
  | entered unknown _ _ ihBody ihRest =>
    have entered := traces.next (State.step_eq_inl_iff.mpr (.entered unknown))
    obtain ⟨_, returns⟩ := ihBody entered rfl
    exact ihRest (returns.next (State.step_eq_inl_iff.mpr .returned)) finished
  | aborted => cases finished

theorem Setting.Traces.called (traces : s.Traces before ⟨a, .call p hit miss, c, pending⟩)
    (fresh : s.recalling = true → p ≠ .unary)
    (body : Run s ⟨p, c.position⟩ (rules s.structTypes p) c (.finished matched) d) :
    ∃ before', s.Traces before' ⟨a, .choose matched hit miss, d, pending⟩ := by
  have unknown := Cursor.lookup_of_fresh fresh c
  have entered := traces.next (State.step_eq_inl_iff.mpr (.entered unknown))
  obtain ⟨before', returns⟩ := body.exists_traces entered rfl
  have goesOn := returns.next (State.step_eq_inl_iff.mpr .returned)
  rw [Cursor.record_of_fresh fresh] at goesOn
  exact ⟨_, goesOn⟩

/-! ## Rounds of a unit -/

/-- Productions that are tried one after the other at the same place. -/
def Command.firstOf (ps : List Production) (hit miss : Command) : Command :=
  ps.foldr (fun p other => call p hit other) miss

def Production.declarations : List Production := [structDef, funcDef, varDef]

theorem rules_unit (structTypes : Bool) :
    rules structTypes .unit = .firstOf Production.declarations (.become .unit)
      (.token .endOfInput .accept .refuse) := rfl

theorem anyDeclaration_eq : anyDeclaration = .firstOf Production.declarations .accept .refuse := rfl

/-- One of the productions has matched, or all have refused at the place. -/
theorem Setting.Traces.firstOf {ps : List Production}
    (plain : ∀ p ∈ ps, p ≠ .unary ∧ p.strays = false)
    (traces : s.Traces before ⟨a, .firstOf ps hit miss, c, pending⟩)
    (h : Run s a (.firstOf ps hit miss) c (.finished matched) d) :
    (∃ before' c', s.Traces before' ⟨a, hit, c', pending⟩ ∧
        Run s a (.firstOf ps .accept .refuse) c (.finished true) c' ∧
        Run s a hit c' (.finished matched) d) ∨
      ∃ c', c'.position = c.position ∧ Run s a miss c' (.finished matched) d := by
  induction ps generalizing before c with
  | nil => exact .inr ⟨c, rfl, h⟩
  | cons p ps ih =>
    obtain ⟨notUnary, stays⟩ := plain p List.mem_cons_self
    have fresh : s.recalling = true → p ≠ .unary := fun _ => notUnary
    rcases h.cases_of_call fresh with ⟨t, cause, e, -⟩ | ⟨answer, c₁, body, rest⟩
    · cases e
    obtain ⟨before₁, traces₁⟩ := traces.called fresh body
    cases answer with
    | true => exact .inl ⟨before₁, c₁, traces₁, .called_of_fresh fresh body .finish, rest⟩
    | false =>
      have back := body.position_of_refused stays
      rcases ih (fun q mem => plain q (List.mem_cons_of_mem _ mem)) traces₁ rest with
        ⟨before', c', traces', found, goesOn⟩ | ⟨c', there, goesOn⟩
      · exact .inl ⟨before', c', traces', .called_of_fresh fresh body found, goesOn⟩
      · exact .inr ⟨c', there.trans back, goesOn⟩

/-- A declaration that is found is not empty, and leaves no missed token behind at its end or
beyond. -/
theorem Run.past_declaration (m : c.Mirrors s b) (le : c.farthestMiss ≤ c.position)
    (h : Run s ⟨.unit, c.position⟩ anyDeclaration c (.finished true) d) :
    c.position < d.position ∧ d.farthestMiss < d.position ∧ ∃ b', d.Mirrors s b' := by
  obtain ⟨b', found, m'⟩ := h.mirrored m
  rw [m.position_eq] at found
  have misses := found.farthestMiss_of_anyDeclaration (s := s.forgetful) rfl
  obtain ⟨ahead, spans⟩ := found.admits (s := s.forgetful) rfl rfl (Nat.le_refl _)
  have spans := spans rfl
  rw [TokenSequence.slice_self, admits_anyDeclaration_iff] at spans
  obtain ⟨kind, rest, e, -⟩ := spans.exists_opener rfl
  have length := congrArg List.length e
  simp only [TokenSequence.length_slice, List.length_cons] at length
  rw [← m.farthestMiss_eq, ← m'.farthestMiss_eq, ← m'.position_eq] at misses
  rw [← m.position_eq, ← m'.position_eq] at length
  exact ⟨by omega, by omega, b', m'⟩

/-- A unit that comes to an end has begun its last round where it comes to rest. What has been
missed before lies nearer. -/
theorem Setting.Traces.exists_last_round (m : c.Mirrors s b)
    (traces : s.Traces before ⟨⟨.unit, c.position⟩, rules s.structTypes .unit, c, pending⟩)
    (le : c.farthestMiss ≤ c.position) (nearer : before = [] ∨ c.farthestMiss < c.position)
    (h : Run s ⟨.unit, c.position⟩ (rules s.structTypes .unit) c (.finished matched) d) :
    ∃ before' u, s.Traces before' u ∧ u.activation = ⟨.unit, d.position⟩ ∧
      u.command = rules s.structTypes .unit ∧ u.cursor.position = d.position ∧
      (before' = [] ∨ u.cursor.farthestMiss < d.position) := by
  induction n : s.tokens.firstEnd - c.position using Nat.strongRecOn generalizing before b c pending with
  | _ n ih =>
    subst n
    have plain : ∀ p ∈ Production.declarations, p ≠ .unary ∧ p.strays = false := by decide
    have round := traces
    rw [rules_unit] at round h
    rcases round.firstOf plain h with ⟨before₁, c₁, traces₁, found, goesOn⟩ | ⟨c', there, goesOn⟩
    · -- after a declaration the next round begins
      rw [← anyDeclaration_eq] at found
      obtain ⟨ahead, nearer₁, b₁, m₁⟩ := found.past_declaration m le
      have fresh : s.recalling = true → Production.unit ≠ .unary := fun _ => by decide
      have unknown := Cursor.lookup_of_fresh fresh c₁
      have traces₂ := traces₁.next (State.step_eq_inl_iff.mpr (.entered unknown))
      have inside : c₁.position ≤ s.tokens.firstEnd := traces₂.reaches.sound.confined.position_le
      exact ih _ (by omega) m₁ traces₂ (Nat.le_of_lt nearer₁) (.inr nearer₁)
        (goesOn.body_of_become fresh) rfl
    · -- nothing but the end is looked for any more
      have stays : d.position = c.position := by
        cases goesOn with
        | taken _ rest =>
          cases rest
          exact there
        | missed _ rest =>
          cases rest
          exact there
      rw [stays]
      exact ⟨before, _, traces, rfl, rfl, rfl, nearer⟩

/-! ## How far the last round looks ahead -/

theorem Run.farthestMiss_structDef
    (h : Run s a (rules s.structTypes .structDef) c (.finished false) d) :
    d.farthestMiss ≤ max c.farthestMiss (c.position + 2) := by
  cases h with
  | missed _ rest =>
    cases rest
    rw [Cursor.farthestMiss_miss]
    omega
  | taken _ h =>
    cases h with
    | missed _ h => cases h
    | taken _ h =>
      cases h with
      | taken _ h => exact absurd rfl (h.ne_refused_of_persistent rfl)
      | missed _ h =>
        cases h with
        | rewound rest =>
          cases rest
          simp [Cursor.position_advance, MissingToken.kind_ne_endOfInput]

theorem Run.position_typeSpec_le (hs : s.recalling = false)
    (h : Run s ⟨.typeSpec, c.position⟩ (rules s.structTypes .typeSpec) c (.finished true) d) :
    d.position ≤ c.position + 2 := by
  have spans := h.derives hs
  have length : (s.tokens.slice c.position d.position).length ≤ 2 := by
    rcases derives_typeSpec_iff.mp spans with e | e | e | ⟨-, e⟩ <;> simp [e]
  rw [TokenSequence.length_slice] at length
  omega

theorem Run.farthestMiss_functionTail (h : Run s a functionTail c (.finished false) d) :
    d.farthestMiss ≤ max c.farthestMiss c.position ∨
      s.tokens.kindAt c.position = .identifier ∧
        d.farthestMiss ≤ max c.farthestMiss (c.position + 1) := by
  cases h with
  | missed _ h =>
    cases h with
    | rewound rest =>
      cases rest
      simp
  | taken isName h =>
    cases h with
    | taken _ h => exact absurd rfl (h.ne_refused_of_persistent rfl)
    | missed _ h =>
      cases h with
      | rewound rest =>
        cases rest
        refine .inr ⟨isName, ?_⟩
        simp [Cursor.position_advance]

/-- A function and a variable that are turned down at a place see no more than two tokens after
it. Had the function seen a third, a name would stand after the type, and no variable with a
name is turned down. -/
theorem Run.farthestMiss_varDef (hs : s.recalling = false) {e : Cursor}
    (func : Run s ⟨.funcDef, c.position⟩ (rules s.structTypes .funcDef) c (.finished false) d)
    (var : Run s ⟨.varDef, d.position⟩ (rules s.structTypes .varDef) d (.finished false) e) :
    e.farthestMiss ≤ max c.farthestMiss (c.position + 2) := by
  have back := func.position_of_refused rfl
  rw [rules_funcDef] at func
  obtain ⟨answer, c₁, type, func⟩ := func.called_of_finished hs
  obtain ⟨answer', d₁, type', var⟩ := var.called_of_finished hs
  obtain ⟨same, there⟩ := (back ▸ type').agrees hs type back
  obtain rfl := Outcome.finished.inj same
  have near := type.farthestMiss_typeSpec
  have near' := type'.farthestMiss_typeSpec
  cases answer' with
  | true =>
    have short := type.position_typeSpec_le hs
    cases var with
    | taken _ h => exact absurd rfl (h.ne_refused_of_persistent rfl)
    | missed noName h =>
      have far := func.farthestMiss_functionTail
      rw [there] at noName
      cases h with
      | rewound rest =>
        cases rest
        rw [Cursor.farthestMiss_rewind, Cursor.farthestMiss_miss]
        rcases far with far | ⟨isName, -⟩
        · omega
        · exact absurd isName noName
  | false =>
    cases var with
    | rewound rest =>
      cases rest
      rw [Cursor.farthestMiss_rewind]
      cases func with
      | rewound h =>
        cases h with
        | missed _ h =>
          cases h with
          | rewound rest =>
            cases rest
            simp only [Cursor.farthestMiss_rewind, Cursor.farthestMiss_miss,
              Cursor.position_rewind] at near'
            omega
        | taken _ h =>
          have far := h.farthestMiss_functionTail
          rw [Cursor.position_advance (by decide)] at far
          simp only [Cursor.position_rewind, Cursor.farthestMiss_advance,
            Cursor.farthestMiss_rewind] at far
          omega

theorem Run.farthestMiss_of_stalled (hs : s.recalling = false)
    (h : Run s ⟨.unit, c.position⟩ (rules s.structTypes .unit) c (.finished false) d)
    (stays : d.position = c.position) : d.farthestMiss ≤ max c.farthestMiss (c.position + 2) := by
  have notFound : ∀ {q : Production} {c₀ c₁ : Cursor}, q.form.nullable = false →
      c₀.position = c.position →
      Run s ⟨q, c₀.position⟩ (rules s.structTypes q) c₀ (.finished true) c₁ →
      ¬ Run s ⟨.unit, c.position⟩ (.become .unit) c₁ (.finished false) d := by
    intro q c₀ c₁ nonempty here found rest
    have ahead := found.start_lt hs nonempty
    have further := (rest.of_become hs).start_le hs
    omega
  obtain ⟨answer₁, c₁, struct, h⟩ := h.called_of_finished hs
  cases answer₁ with
  | true => exact absurd h (notFound (q := .structDef) rfl rfl struct)
  | false =>
    have back₁ := struct.position_of_refused rfl
    obtain ⟨answer₂, c₂, func, h⟩ := h.called_of_finished hs
    cases answer₂ with
    | true => exact absurd h (notFound (q := .funcDef) rfl back₁ func)
    | false =>
      have back₂ := func.position_of_refused rfl
      obtain ⟨answer₃, c₃, var, h⟩ := h.called_of_finished hs
      cases answer₃ with
      | true => exact absurd h (notFound (q := .varDef) rfl (back₂.trans back₁) var)
      | false =>
        have far := struct.farthestMiss_structDef
        have far' := func.farthestMiss_varDef hs var
        have back₃ := var.position_of_refused rfl
        cases h with
        | taken _ h => cases h
        | missed _ h =>
          cases h
          rw [Cursor.farthestMiss_miss]
          omega

/-! ## Where a parse ends -/

theorem Setting.tokenAt_of_failed {t : Token} {cause : Expectation}
    (failed : s.recognize.1 = .failed t cause) : s.tokens.tokenAt s.recognize.2.position = t := by
  obtain ⟨u, -, halts, -⟩ := s.exists_last
  rw [show s.recognize = (s.recognize.1, s.recognize.2) from rfl, failed] at halts
  cases halts
  rfl

/-- Where a unit has stalled, declarations stand before the place, all that was missed before
the last round lies nearer, and the report is of one of the next three tokens. -/
theorem Setting.rest_of_stalled (stalled : s.recognize.1 = .finished false) :
    Derives s.structTypes (.many .declaration) (s.tokens.slice 0 s.recognize.2.position) ∧
    (∃ before u, s.Traces before u ∧ u.activation = ⟨.unit, s.recognize.2.position⟩ ∧
      u.command = rules s.structTypes .unit ∧ u.cursor.position = s.recognize.2.position ∧
      ∀ t ∈ before, t.Misses s → t.cursor.position < s.recognize.2.position) ∧
    s.recognize.2.stalledAt ≤ s.recognize.2.position + 2 := by
  have run := s.run_recognize
  obtain ⟨same, m⟩ := s.recognize_forgetful
  have run' := s.forgetful.run_recognize
  rw [stalled] at run same
  rw [← same] at run'
  refine ⟨?_, ?_, ?_⟩
  · obtain ⟨p, stalls⟩ := Run.stallsAt (c := {}) rfl (.initial _) run'
    rw [m.position_eq, stalls.position_eq]
    exact stalls.declarations
  · obtain ⟨before, u, traces, isUnit, body, here, nearer⟩ :=
      Setting.Traces.exists_last_round (c := {}) (.refl_initial s) .start (Nat.le_refl _) (.inl rfl) run
    refine ⟨before, u, traces, isUnit, body, here, fun t mem missed => ?_⟩
    rcases nearer with rfl | nearer
    · cases mem
    · exact Nat.lt_of_le_of_lt (traces.position_le t mem missed) nearer
  · obtain ⟨p, stalls⟩ := Run.stallsAt (c := {}) rfl (.initial _) run'
    have shown := s.forgetful.tokens.shows_slice 0 p
    obtain ⟨c, there, le, lastRound⟩ :=
      Setting.exists_run_past (s := s.forgetful) rfl stalls.declarations shown
    rw [← same, ← there] at lastRound
    rw [TokenSequence.length_slice, Nat.sub_zero] at there le
    have stays : s.forgetful.recognize.2.position = c.position := stalls.position_eq.trans there.symm
    have far := lastRound.farthestMiss_of_stalled (s := s.forgetful) rfl stays
    unfold Cursor.stalledAt
    rw [m.farthestMiss_eq, m.position_eq]
    omega

/-- Where the cursor stands after a parse. If the tokens are accepted, it is at the first end; if
something must follow and does not, it is at the token that is blamed. If the unit stalls,
declarations stand before the cursor, there the last round of the unit has begun, and every
token that was missed before this round lies before the cursor; the token that is reported is
the one at the cursor or one of the next two. -/
theorem parse_comes_to_rest (tokens : Array Token) (structTypes : Bool) :
    let completed := TokenSequence.ofArray tokens
    let s := (Parser.ofTokens tokens structTypes).setting
    let verdict := (Parser.ofTokens tokens structTypes).parse.1
    let rest := (Parser.ofTokens tokens structTypes).parse.2
    (verdict = .ok () → rest.position = completed.firstEnd) ∧
    (∀ t cause, verdict = .error (.fatal t cause) →
      rest.current = t ∧ completed.toList[rest.position]? = some t) ∧
    ∀ t, verdict = .error (.stalled t) →
      Derives structTypes (.many .declaration) (completed.kinds.take rest.position) ∧
      (∃ before u, s.Traces before u ∧ u.activation = ⟨.unit, rest.position⟩ ∧
        u.command = rules structTypes .unit ∧ u.cursor.position = rest.position ∧
        ∀ v ∈ before, v.Misses s → v.cursor.position < rest.position) ∧
      rest.position ≤ rest.cursor.stalledAt ∧ rest.cursor.stalledAt ≤ rest.position + 2 ∧
      completed.toList[rest.cursor.stalledAt]? = some t := by
  intro completed s verdict rest
  have confined := s.confined_recognize
  have inside : rest.position ≤ completed.firstEnd := confined.position_le
  refine ⟨fun accepted => ?_, fun t cause fails => ?_, fun t stalls => ?_⟩
  · obtain ⟨same, m⟩ := s.recognize_forgetful
    have matched : s.forgetful.recognize.1 = .finished true :=
      same.symm.trans (Setting.verdict_eq_ok_iff.mp accepted)
    exact m.position_eq.trans (s.forgetful.position_of_matched rfl matched)
  · obtain rfl : completed.tokenAt rest.position = t :=
      Setting.tokenAt_of_failed (s := s) (Setting.verdict_eq_fatal_iff.mp fails)
    exact ⟨rfl, completed.toList_getElem?_of_le inside⟩
  · obtain ⟨stalled, rfl⟩ := Setting.exists_of_verdict_stalled (s := s) stalls
    obtain ⟨declarations, lastRound, near⟩ := Setting.rest_of_stalled stalled
    have within : rest.position ≤ completed.size :=
      Nat.le_of_lt (Nat.lt_of_le_of_lt inside completed.firstEnd_lt_size)
    rw [completed.take_kinds within]
    exact ⟨declarations, lastRound, Nat.le_max_right .., near,
      completed.toList_getElem?_of_le confined.stalledAt_le⟩

/-- A variable that is accepted, one without a semicolon, and one before a type without a name. -/
theorem parse_comes_to_rest_three_ways :
    let finished : Array Token :=
      #[⟨.keyword .kwInt, "int", 1⟩, ⟨.identifier, "x", 1⟩, ⟨.symbol .semicolon, ";", 1⟩]
    let unfinished := finished.pop
    let followed := finished ++ #[⟨.keyword .kwInt, "int", 2⟩, ⟨.literal .integer, "3", 2⟩]
    ((Parser.ofTokens finished false).parse.1 = .ok () ∧
      (Parser.ofTokens finished false).parse.2.position = 3) ∧
    ((Parser.ofTokens unfinished false).parse.1 =
        .error (.fatal (.endAt 1) (.token .variablesEnd)) ∧
      (Parser.ofTokens unfinished false).parse.2.current = .endAt 1) ∧
    (Parser.ofTokens followed false).parse.1 = .error (.stalled ⟨.literal .integer, "3", 2⟩) ∧
      Derives false (.many .declaration) ((TokenSequence.ofArray followed).kinds.take
        (Parser.ofTokens followed false).parse.2.position) ∧
      (Parser.ofTokens followed false).parse.2.cursor.stalledAt ≤
        (Parser.ofTokens followed false).parse.2.position + 2 := by
  intro finished unfinished followed
  have accepted : (Parser.ofTokens finished false).parse.1 = .ok () := by cbv
  have fails : (Parser.ofTokens unfinished false).parse.1 =
      .error (.fatal (.endAt 1) (.token .variablesEnd)) := by cbv
  have stalls : (Parser.ofTokens followed false).parse.1 =
      .error (.stalled ⟨.literal .integer, "3", 2⟩) := by cbv
  have atEnd := (parse_comes_to_rest finished false).1 accepted
  have blamed := (parse_comes_to_rest unfinished false).2.1 _ _ fails
  obtain ⟨declarations, -, -, near, -⟩ := (parse_comes_to_rest followed false).2.2 _ stalls
  exact ⟨⟨accepted, atEnd⟩, ⟨fails, blamed.1⟩, stalls, declarations, near⟩

end AtomFrontEnd

import AtomFrontEnd.Proofs.Thrift

/-!
A parse goes back no more than twice for each token.

Most bodies are thrifty because a check says so. What is left is shown here. An expression reads
the operand before a possible `=` a second time, at the beginning of a disjunction; but by then the
operand is remembered, and it costs no more than the two moves back that it has left over, one to
the start of the expression and one from behind a parenthesis (`thrifty_expression`). So all
productions are thrifty (`Setting.thriftyBelow`). A unit tries three declarations, the first two of
which may refuse after one move back each, and begins again with what they have left over
(`Run.length_backtracks_of_unit`).
-/

namespace AtomFrontEnd

variable {s : Setting} {a : Activation} {c c' c₀ c₁ d : Cursor} {o o' : Outcome} {p : Production}
  {first : Option (List TokenKind)} {credit : Nat}

theorem Setting.ThriftyBelow.mono {m n : Nat} (below : s.ThriftyBelow n) (le : m ≤ n) :
    s.ThriftyBelow m :=
  fun q c o d notUnit less => below q c o d notUnit (Nat.lt_of_lt_of_le less le)

theorem Run.leaves (h : Run s ⟨p, c.position⟩ (rules s.structTypes p) c o d) (sound : c.Sound s)
    (m : c.Mirrors s c) : d.Sound s ∧ d.Mirrors s d ∧ c.position ≤ d.position := by
  obtain ⟨b, run, m'⟩ := h.mirrored m
  have le := run.start_le (s := s.forgetful) rfl
  rw [← m'.position_eq] at le
  exact ⟨(h.sound sound).1, m'.self, le⟩

theorem Setting.length_lt_budget {kind : TokenKind} (sound : c.Sound s)
    (here : s.tokens.kindAt c.position = kind) (notEnd : kind ≠ .endOfInput) :
    c.backtracks.length + 2 ≤ s.budget c := by
  have paid := Setting.budget_advance sound here notEnd
  have rest := s.length_le_budget (c.advance kind)
  rw [Cursor.backtracks_advance] at rest
  omega

/-! ## Types and casts -/

theorem thrifty_typeSpec (sound : c.Sound s)
    (h : Run s ⟨.typeSpec, c.position⟩ (rules s.structTypes .typeSpec) c o d) :
    s.Thrifty .typeSpec c o d := by
  have same := congrArg List.length h.backtracks_typeSpec
  refine ⟨fun matched => ?_, fun _ => .inl (Nat.le_of_eq same), fun _ _ _ => ?_⟩
  · obtain ⟨sound', far⟩ := h.sound sound
    have ahead := far matched rfl
    have bound := sound'.position_le
    rw [Setting.budget, Setting.budget, Production.saving]
    omega
  · rw [same]
    exact s.length_le_budget c

/-- The cursor is at `c'` where it was at `c`, and knows the same. It may have been behind a
parenthesis, and come back. -/
structure Cursor.Returns (s : Setting) (c c' : Cursor) : Prop where
  sound : c'.Sound s
  mirrors : c'.Mirrors s c'
  position_eq : c'.position = c.position
  known_eq : c'.known = c.known
  length_le : c'.backtracks.length ≤ c.backtracks.length ∨
    s.tokens.kindAt c.position = .symbol .leftParen ∧
      c'.backtracks.length ≤ c.backtracks.length + 1

theorem Cursor.Returns.length_le_succ (h : c.Returns s c') :
    c'.backtracks.length ≤ c.backtracks.length + 1 :=
  h.length_le.elim Nat.le_succ_of_le And.right

theorem Cursor.Returns.budget_le (h : c.Returns s c') : s.budget c' ≤ s.budget c + 1 :=
  s.budget_le_of_length h.position_eq h.length_le_succ

/-- The move back from behind a parenthesis is one that the parenthesis pays for. -/
theorem Cursor.Returns.moved (h : c.Returns s c') (sound : c.Sound s) :
    c'.backtracks.length ≤ c.backtracks.length ∨
      s.tokens.kindAt c.position ∈ (Production.form .unary).openers true ∧
        c'.backtracks.length ≤ s.budget c := by
  rcases h.length_le with same | ⟨opens, one⟩
  · exact .inl same
  · have spend := Setting.length_lt_budget sound opens (by decide)
    rw [opens]
    exact .inr ⟨by decide, by omega⟩

theorem Run.returns (sound : c.Sound s) (m : c.Mirrors s c)
    (opens : s.tokens.kindAt c.position = .symbol .leftParen)
    (type : Run s ⟨.typeSpec, (c.advance (.symbol .leftParen)).position⟩
      (rules s.structTypes .typeSpec) (c.advance (.symbol .leftParen)) (.finished false) d) :
    c.Returns s (d.rewind c.position) := by
  obtain ⟨sound', m', le⟩ := type.leaves (sound.advance opens) (m.advance _)
  obtain ⟨same, known⟩ := type.of_still rfl
  have one := Cursor.length_backtracks_rewind_le c.position d
  rw [Cursor.position_advance (by decide)] at le
  rw [same, Cursor.backtracks_advance] at one
  refine ⟨sound'.rewind (by omega), (m'.rewind _).self, Cursor.position_rewind .., ?_,
    .inr ⟨opens, one⟩⟩
  rw [Cursor.known_rewind, known, Cursor.known_advance]

/-- From `c` a production that does not refuse has come to the outcome `o` and the cursor `d`, with
so many moves left over. -/
structure Setting.Spares (s : Setting) (credit : Nat) (c : Cursor) (o : Outcome) (d : Cursor) :
    Prop where
  sound : d.Sound s
  mirrors : d.Mirrors s d
  start_le : c.position ≤ d.position
  not_refused : o ≠ .finished false
  matched : o = .finished true → s.budget d + credit ≤ s.budget c
  failed : ∀ t cause, o = .failed t cause → d.backtracks.length + credit ≤ s.budget c

theorem Setting.Spares.thrifty (h : s.Spares credit c o d) (saving : p.saving ≤ credit)
    (margin : p.margin ≤ credit) : s.Thrifty p c o d := by
  refine ⟨fun e => ?_, fun e => absurd e h.not_refused, fun t cause e => ?_⟩
  · have matched := h.matched e
    omega
  · have failed := h.failed t cause e
    omega

theorem Setting.Saves.castOperand (below : s.ThriftyBelow (s.work ⟨.cast, c₀.position⟩))
    (saves : s.Saves .cast c₀ first credit c)
    (onTrack : (Command.need .castClose <| .needPart .castOperand .accept).OnTrack
      ⟨.cast, c₀.position⟩ c.position)
    (h : Run s ⟨.cast, c₀.position⟩ (.need .castClose <| .needPart .castOperand .accept) c o d) :
    (o = .finished true → s.budget d + credit ≤ s.budget c₀) ∧
      ∀ t cause, o = .failed t cause → d.backtracks.length + credit ≤ s.budget c₀ := by
  have left := saves.length_le
  cases h with
  | missed _ rest =>
    cases rest
    exact ⟨by simp, fun _ _ _ => left⟩
  | @taken _ _ _ _ _ _ _ closes rest =>
    have saves' := saves.taken closes (by decide)
    have saved := saves'.saved
    rcases below.answers saves'.sound saves'.mirrors onTrack.taken (by decide) rest with
      ⟨t, cause, b, rfl, failed, -⟩ | ⟨answer, c', answers, rest⟩
    · have bound := failed.failed t cause rfl
      exact ⟨by simp, fun _ _ _ => by omega⟩
    · cases answer with
      | true =>
        cases rest
        have bound := answers.thrifty.matched rfl
        exact ⟨fun _ => by omega, by simp⟩
      | false =>
        have bound := answers.thrifty.length_le_budget
        cases rest
        exact ⟨by simp, fun _ _ _ => by omega⟩

/-- A cast with a type pays for its operand and leaves something over; any other becomes
`unary` where it began. -/
theorem Run.typed_or_returns (below : s.ThriftyBelow (s.work ⟨.cast, c.position⟩))
    (sound : c.Sound s) (m : c.Mirrors s c)
    (h : Run s ⟨.cast, c.position⟩ (rules s.structTypes .cast) c o d) :
    (s.tokens.kindAt c.position = .symbol .leftParen ∧
        s.tokens.kindAt (c.position + 1) ∈ TokenKind.typeOpeners true ∧ s.Spares 2 c o d) ∨
      ∃ c', c.Returns s c' ∧ Run s ⟨.cast, c.position⟩ (.become .unary) c' o d := by
  obtain ⟨sound', m', le⟩ := h.leaves sound m
  have onTrack := Command.OnTrack.rules s.structTypes .cast c.position
  cases h with
  | missed other rest =>
    exact .inr ⟨c.miss, ⟨sound.miss, m.miss.self, rfl, rfl, .inl (Nat.le_refl _)⟩, rest⟩
  | taken opens rest =>
    have there : (c.advance (.symbol .leftParen)).position = c.position + 1 :=
      Cursor.position_advance (by decide) c
    have saves := (Setting.Saves.begin (p := .cast) sound m).taken opens (by decide)
    have saved := saves.saved
    rcases rest.cases_of_call (fun _ => by decide) with
      ⟨t, cause, rfl, type⟩ | ⟨answer, c₂, type, rest⟩
    · have typed := type.opens saves.mirrors rfl (by simp)
      rw [there] at typed
      have bound := (thrifty_typeSpec saves.sound type).length_le_budget
      exact .inl ⟨opens, typed, sound', m', le, by simp, by simp, fun _ _ _ => by omega⟩
    have thrifty := thrifty_typeSpec saves.sound type
    have answers := s.answers_of_run saves.sound saves.mirrors thrifty type
    rw [Cursor.record_of_fresh fun _ => by decide] at answers
    have onTrack' := onTrack.taken.resumed answers.position_le answers.position_lt
    cases answer with
    | true =>
      have typed := answers.opens rfl rfl
      rw [there] at typed
      obtain ⟨matched, failed⟩ := (saves.matched answers (.inl rfl)).castOperand below onTrack' rest
      refine .inl ⟨opens, typed, sound', m', le, ?_, fun e => ?_, fun t cause e => ?_⟩
      · exact rest.ne_refused_of_persistent rfl
      · have bound := matched e
        omega
      · have bound := failed t cause e
        omega
    | false =>
      cases rest with
      | rewound rest => exact .inr ⟨_, type.returns sound m opens, rest⟩

theorem Run.of_known {result : Option Nat} (recalls : s.recalling = true)
    (known : c.known[c.position]? = some result) (h : Run s a (.become .unary) c o d) :
    o = .finished result.isSome ∧ d = { c with position := result.getD c.position } := by
  have recalled : c.lookup s .unary =
      some (result.isSome, { c with position := result.getD c.position }) := by
    unfold Cursor.lookup
    rw [if_pos ⟨recalls, rfl⟩, known]
    cases result <;> rfl
  cases h with
  | recalled known' rest =>
    obtain ⟨rfl, rfl⟩ := Prod.mk.inj (Option.some.inj (recalled.symm.trans known'))
    cases result with
    | none =>
      cases rest
      exact ⟨rfl, rfl⟩
    | some stop =>
      cases rest
      exact ⟨rfl, rfl⟩
  | entered unknown _ _ => exact absurd recalled (by simp [unknown])
  | aborted unknown _ => exact absurd recalled (by simp [unknown])

/-- Where an operand may begin, a refusal may have gone back as often as the tokens ahead pay for. -/
theorem Setting.Thrifty.of_operand (lavish : p.lavish = true) (free : p.margin = 0)
    (openers : ∀ kind ∈ (Production.form .unary).openers true, kind ∈ p.form.openers true)
    (h : d.backtracks.length ≤ c.backtracks.length ∨
      s.tokens.kindAt c.position ∈ (Production.form .unary).openers true ∧
        d.backtracks.length ≤ s.budget c) : s.Thrifty p c (.finished false) d := by
  refine .of_refused (h.imp_right fun ⟨opener, paid⟩ => ⟨lavish, openers _ opener, ?_⟩)
  rw [free]
  exact paid

theorem thrifty_cast (below : s.ThriftyBelow (s.work ⟨.cast, c.position⟩)) (sound : c.Sound s)
    (m : c.Mirrors s c) (h : Run s ⟨.cast, c.position⟩ (rules s.structTypes .cast) c o d) :
    s.Thrifty .cast c o d := by
  rcases h.typed_or_returns below sound m with ⟨-, -, spares⟩ | ⟨c', back, rest⟩
  · exact spares.thrifty (by decide) (by decide)
  have onTrack : (Command.become .unary).OnTrack ⟨.cast, c.position⟩ c'.position :=
    ⟨false, rfl, Nat.le_of_eq back.position_eq.symm, by simp⟩
  have near := back.budget_le
  rcases below.answers back.sound back.mirrors onTrack (by decide) rest with
    ⟨t, cause, b, rfl, thrifty, -⟩ | ⟨answer, c₁, answers, rest⟩
  · have paid : d.backtracks.length + 1 ≤ s.budget c' := thrifty.failed t cause rfl
    exact .of_failed (Nat.le_of_succ_le_succ (Nat.le_trans paid near))
  · cases answer with
    | true =>
      cases rest
      have paid : s.budget d + 2 ≤ s.budget c' := answers.thrifty.matched rfl
      exact .of_matched (show s.budget d ≤ s.budget c by omega)
    | false =>
      cases rest
      refine .of_operand rfl rfl (by decide) ?_
      rcases answers.thrifty.refused rfl with unmoved | ⟨-, opener, paid⟩
      · exact (back.moved sound).imp (Nat.le_trans unmoved) (.imp_right (Nat.le_trans unmoved))
      · rw [back.position_eq] at opener
        rw [Production.margin] at paid
        exact .inr ⟨opener, by omega⟩

/-! ## Operators -/

theorem Setting.Operates.spares (below : s.ThriftyBelow (s.work ⟨.expression, c.position⟩))
    (h : s.Operates o c₁ o' d) (spares : s.Spares 0 c o c₁) : s.Spares 0 c o' d := by
  have notRefused := h.ne_refused spares.not_refused
  induction h with
  | done => exact spares
  | @more l c' d o' before rest ih =>
    have so := ih (by simp)
    have less : s.work ⟨.moreOperands l, c'.position⟩ < s.work ⟨.expression, c.position⟩ :=
      Setting.work_lt so.sound.position_le so.start_le (.inr (show 0 < 10 by decide))
    have thrifty := below _ _ _ _ (by simp) less so.sound so.mirrors rest
    have before := so.matched rfl
    obtain ⟨sound, mirrors, le⟩ := rest.leaves so.sound so.mirrors
    refine ⟨sound, mirrors, Nat.le_trans so.start_le le, notRefused, fun matched => ?_,
      fun t cause failed => ?_⟩
    · have paid := thrifty.matched matched
      omega
    · have paid := thrifty.failed t cause failed
      omega

/-! ## Expressions -/

section

variable {answer : Bool} (recalls : s.recalling = true)
  (below : s.ThriftyBelow (s.work ⟨.expression, c.position⟩)) (answers : s.Answers .unary c answer c₁)
  (here : c₀.position = c.position) (sound : c₀.Sound s) (m : c₀.Mirrors s c₀)
  (knows : c₀.known = c₁.known) (h : Run s a (.become (.binary .disjunction)) c₀ o d)

include recalls below answers here sound m knows h

/-- A disjunction that begins where an operand has been read before recalls it, unless a type in
parentheses stands there. Then operators may follow. -/
theorem Run.exists_recalled : ∃ o₁ c₂, s.Operates o₁ c₂ o d ∧
    (s.tokens.kindAt c.position = .symbol .leftParen ∧
        s.tokens.kindAt (c.position + 1) ∈ TokenKind.typeOpeners true ∧ s.Spares 2 c₀ o₁ c₂ ∨
      ∃ c', c₀.Returns s c' ∧ o₁ = .finished answer ∧ c₂ = { c' with position := c₁.position }) := by
  obtain ⟨o₁, c₂, cast, operates⟩ := (h.body_of_become fun _ => by simp).exists_cast
  have belowCast : s.ThriftyBelow (s.work ⟨.cast, c₀.position⟩) := by
    rw [here]
    exact below.mono (Nat.add_le_add_left (show 3 ≤ 10 by decide) _)
  refine ⟨o₁, c₂, operates, ?_⟩
  rcases cast.typed_or_returns belowCast sound m with typed | ⟨c', back, rest⟩
  · rw [here] at typed
    exact .inl typed
  · have there := back.position_eq.trans here
    have known := answers.known recalls rfl
    rw [← knows, ← back.known_eq, ← there] at known
    obtain ⟨rfl, rfl⟩ := rest.of_known recalls known
    refine .inr ⟨c', back, ?_⟩
    cases answer with
    | true => exact ⟨rfl, rfl⟩
    | false =>
      rw [answers.position_eq rfl rfl, ← there]
      exact ⟨rfl, rfl⟩

end

/-- What has been matched as an operand pays for being read again. -/
theorem thrifty_disjunction_of_matched (recalls : s.recalling = true)
    (below : s.ThriftyBelow (s.work ⟨.expression, c.position⟩))
    (answers : s.Answers .unary c true c₁)
    (h : Run s a (.become (.binary .disjunction)) (c₁.miss.rewind c.position) o d) :
    s.Thrifty .expression c o d := by
  have here := Cursor.position_rewind c.position c₁.miss
  have one := Cursor.length_backtracks_rewind_le c.position c₁.miss
  rw [Cursor.backtracks_miss] at one
  have sound := answers.sound.miss.rewind answers.position_le
  have m := (answers.mirrors.miss.rewind c.position).self
  have knows := Cursor.known_rewind c.position c₁.miss
  obtain ⟨o₁, c₂, operates, ⟨opens, type, -⟩ | ⟨c', back, rfl, rfl⟩⟩ :=
    h.exists_recalled recalls below answers here sound m knows
  · -- where a type follows a parenthesis no operand matches
    obtain ⟨b, run, -⟩ := answers.mirrored
    have refuses := yields_unary_refusal (s := s.forgetful) rfl opens type c rfl _ _ run
    exact absurd refuses.1 (by simp)
  · have paid : s.budget c₁ + 2 ≤ s.budget c := answers.thrifty.matched rfl
    have two := back.length_le_succ
    have spares : s.Spares 0 c (.finished true) { c' with position := c₁.position } := by
      refine ⟨⟨answers.sound.position_le, back.sound.known_lt⟩,
        ⟨rfl, rfl, .refl _, back.mirrors.replays⟩, answers.position_le, by simp, fun _ => ?_, by simp⟩
      rw [Setting.budget] at paid ⊢
      show c'.backtracks.length + 2 * (s.tokens.firstEnd - c₁.position) + 0 ≤ s.budget c
      omega
    exact (operates.spares below spares).thrifty (by decide) (by decide)

theorem thrifty_disjunction_of_refused (recalls : s.recalling = true)
    (below : s.ThriftyBelow (s.work ⟨.expression, c.position⟩))
    (answers : s.Answers .unary c false c₁)
    (h : Run s a (.become (.binary .disjunction)) c₁ o d) : s.Thrifty .expression c o d := by
  have here := answers.position_eq rfl rfl
  obtain ⟨o₁, c₂, operates, ⟨opens, type, spares⟩ | ⟨c', back, rfl, rfl⟩⟩ :=
    h.exists_recalled recalls below answers here answers.sound answers.mirrors rfl
  · -- the operand has gone back once, and the parenthesis pays for it
    obtain ⟨b, run, le⟩ := answers.length_le
    have light := run.light_unary_of_typed (s := s.forgetful) rfl opens type
    have near : s.budget c₁ ≤ s.budget c + 1 :=
      s.budget_le_of_length here (Nat.le_trans le light)
    have spares' : s.Spares 0 c o₁ c₂ := by
      refine ⟨spares.sound, spares.mirrors, here ▸ spares.start_le, spares.not_refused,
        fun e => ?_, fun t cause e => ?_⟩
      · have matched := spares.matched e
        omega
      · have failed := spares.failed t cause e
        omega
    exact (operates.spares below spares').thrifty (by decide) (by decide)
  · obtain ⟨rfl, rfl⟩ := operates.eq_of_ne (by simp)
    refine .of_operand rfl rfl (by decide) ?_
    show c'.backtracks.length ≤ _ ∨ _ ∧ c'.backtracks.length ≤ _
    rcases answers.thrifty.refused rfl with unmoved | ⟨-, opener, paid⟩
    · have less : s.budget c₁ ≤ s.budget c + 0 := s.budget_le_of_length here unmoved
      have moved := back.moved answers.sound
      rw [here] at moved
      exact moved.imp (fun le => Nat.le_trans le unmoved) (.imp_right fun le => Nat.le_trans le less)
    · have one := back.length_le_succ
      rw [Production.margin] at paid
      exact .inr ⟨opener, Nat.le_trans one paid⟩

theorem thrifty_expression (recalls : s.recalling = true)
    (below : s.ThriftyBelow (s.work ⟨.expression, c.position⟩)) (sound : c.Sound s)
    (m : c.Mirrors s c)
    (h : Run s ⟨.expression, c.position⟩ (rules s.structTypes .expression) c o d) :
    s.Thrifty .expression c o d := by
  have onTrack := Command.OnTrack.rules s.structTypes .expression c.position
  rcases below.answers sound m onTrack (by decide) h with
    ⟨t, cause, b, rfl, failed, -⟩ | ⟨answer, c₁, answers, rest⟩
  · exact .of_failed (failed.length_le_budget)
  have onTrack' := onTrack.resumed answers.position_le answers.position_lt
  cases answer with
  | false => exact thrifty_disjunction_of_refused recalls below answers rest
  | true =>
    have saves := (Setting.Saves.begin (p := .expression) sound m).matched answers (.inl rfl)
    cases rest with
    | taken assigns rest =>
      exact (saves.taken assigns (by decide)).thrifty below (by decide) onTrack'.taken rest
    | missed _ rest =>
      cases rest with
      | rewound rest => exact thrifty_disjunction_of_matched recalls below answers rest

/-! ## All productions -/

/-- With a memory every production but the unit is thrifty. -/
theorem Setting.thriftyBelow (recalls : s.recalling = true) (n : Nat) : s.ThriftyBelow n := by
  induction n with
  | zero =>
    intro q c o d _ less
    exact absurd less (Nat.not_lt_zero _)
  | succ n ih =>
    intro q c o d notUnit less sound m h
    have below := ih.mono (Nat.le_of_lt_succ less)
    cases plain : q.plain with
    | true => exact (Setting.Saves.begin sound m).thrifty below (thrifty_rules _ plain) (.rules ..) h
    | false =>
      cases q with
      | unit => exact absurd rfl notUnit
      | typeSpec => exact thrifty_typeSpec sound h
      | cast => exact thrifty_cast below sound m h
      | expression => exact thrifty_expression recalls below sound m h
      | _ => cases plain

/-! ## The unit -/

/-- What is refused after one move back at most leaves the budget as it was, but for that move. -/
theorem Setting.Answers.budget_le_of_light {q : Production} (answers : s.Answers q c false c₁)
    (stays : q.strays = false)
    (light : ∀ b, Run s.forgetful ⟨q, c.position⟩ (rules s.structTypes q) c (.finished false) b →
      b.backtracks.length ≤ c.backtracks.length + 1) : s.budget c₁ ≤ s.budget c + 1 := by
  obtain ⟨b, run, le⟩ := answers.length_le
  exact s.budget_le_of_length (answers.position_eq rfl stays) (Nat.le_trans le (light b run))

/-- A declaration that a unit tries, where it has gone back a few times already, fails or is
refused, or it matches and the unit begins again with what the declaration has left over. -/
theorem Setting.ThriftyBelow.declaration {q : Production} {miss : Command} {spent : Nat}
    (below : s.ThriftyBelow (s.work ⟨.unit, c.position⟩))
    (again : ∀ c' : Cursor, c'.Sound s → c'.Mirrors s c' → c.position < c'.position →
      s.budget c' ≤ s.budget c → Run s ⟨.unit, c.position⟩ (.become .unit) c' o d →
      d.backtracks.length ≤ s.budget c + 2)
    (sound : c₁.Sound s) (m : c₁.Mirrors s c₁) (here : c₁.position = c.position)
    (near : s.budget c₁ ≤ s.budget c + spent) (few : spent ≤ 2) (pays : spent ≤ q.saving)
    (notUnit : q ≠ .unit) (nonempty : q.nullable = false)
    (onTrack : (Command.call q (.become .unit) miss).OnTrack ⟨.unit, c.position⟩ c₁.position)
    (h : Run s ⟨.unit, c.position⟩ (.call q (.become .unit) miss) c₁ o d) :
    d.backtracks.length ≤ s.budget c + 2 ∨
      ∃ c₂, s.Answers q c₁ false c₂ ∧ miss.OnTrack ⟨.unit, c.position⟩ c₂.position ∧
        Run s ⟨.unit, c.position⟩ miss c₂ o d := by
  rcases below.answers sound m onTrack notUnit h with
    ⟨t, cause, b, rfl, failed, -⟩ | ⟨answer, c₂, answers, rest⟩
  · have bound := failed.length_le_budget
    exact .inl (by omega)
  cases answer with
  | true =>
    have paid := answers.thrifty.matched rfl
    have ahead := answers.position_lt rfl nonempty
    exact .inl (again c₂ answers.sound answers.mirrors (by omega) (by omega) rest)
  | false => exact .inr ⟨c₂, answers, onTrack.resumed answers.position_le answers.position_lt, rest⟩

/-- A unit goes back as often as the tokens pay for, and twice more: of its last round the first
two declarations may have gone back, and nothing has been taken for that. -/
theorem Run.length_backtracks_of_unit (recalls : s.recalling = true) (sound : c.Sound s)
    (m : c.Mirrors s c) (h : Run s ⟨.unit, c.position⟩ (rules s.structTypes .unit) c o d) :
    d.backtracks.length ≤ s.budget c + 2 := by
  induction left : s.tokens.firstEnd - c.position using Nat.strongRecOn generalizing c with
  | _ n ih =>
    subst left
    have below := Setting.thriftyBelow recalls (s.work ⟨.unit, c.position⟩)
    have onTrack := Command.OnTrack.rules s.structTypes .unit c.position
    have again : ∀ c' : Cursor, c'.Sound s → c'.Mirrors s c' → c.position < c'.position →
        s.budget c' ≤ s.budget c → Run s ⟨.unit, c.position⟩ (.become .unit) c' o d →
        d.backtracks.length ≤ s.budget c + 2 := by
      intro c' sound' m' ahead paid rest
      have bound := sound'.position_le
      have body := rest.body_of_become fun _ => by decide
      exact Nat.le_trans (ih _ (by omega) sound' m' body rfl) (Nat.add_le_add_right paid 2)
    rcases below.declaration again sound m rfl (Nat.le_refl (s.budget c + 0)) (by decide)
      (by decide) (by decide) rfl onTrack h with done | ⟨c₁, struct, onTrack₁, rest₁⟩
    · exact done
    have here₁ := struct.position_eq rfl rfl
    have near₁ := struct.budget_le_of_light rfl fun b run => run.light_structDef (s := s.forgetful)
    rcases below.declaration again struct.sound struct.mirrors here₁ near₁ (by decide) (by decide)
      (by decide) rfl onTrack₁ rest₁ with done | ⟨c₂, function, onTrack₂, rest₂⟩
    · exact done
    have here₂ := (function.position_eq rfl rfl).trans here₁
    have near₂ : s.budget c₂ ≤ s.budget c + 2 := Nat.le_trans
      (function.budget_le_of_light rfl fun b run => run.light_funcDef (s := s.forgetful))
      (Nat.succ_le_succ near₁)
    rcases below.declaration again function.sound function.mirrors here₂ near₂ (by decide) (by decide)
      (by decide) rfl onTrack₂ rest₂ with done | ⟨c₃, variable', -, rest₃⟩
    · exact done
    have bound := variable'.thrifty.length_le_budget
    rw [(rest₃.of_still rfl).1]
    exact Nat.le_trans bound near₂

/-- All moves back of a parse go back, from no farther than the first end, and there are no more
of them than twice the number of tokens, the closing one included. -/
theorem parse_moves_back (tokens : Array Token) (structTypes : Bool) :
    let completed := TokenSequence.ofArray tokens
    let moves := (Parser.ofTokens tokens structTypes).parse.2.cursor.backtracks
    (∀ m ∈ moves, m.target < m.source ∧ m.source ≤ completed.firstEnd) ∧
      moves.length ≤ 2 * completed.size := by
  intro completed moves
  let s := (Parser.ofTokens tokens structTypes).setting
  refine ⟨s.backward_recognize, ?_⟩
  have bound : moves.length ≤ s.budget {} + 2 :=
    s.run_recognize.length_backtracks_of_unit rfl (.initial s) (.refl_initial s)
  have inside : s.tokens.firstEnd < completed.size := completed.firstEnd_lt_size
  have all : s.budget {} = 2 * s.tokens.firstEnd := Nat.zero_add _
  omega

end AtomFrontEnd

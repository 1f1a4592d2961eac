import AtomFrontEnd.Proofs.Stall

/-!
What stands before a declaration has no part in the verdict on it.

Without a memory a run is as good at any other place where the same tokens stand:
it comes to the same outcome, and every position in it is moved by the same distance
(`Run.shifted`). A unit takes its declarations one after the other, and none of them
is looked at beyond its last token, since no declaration is a beginning of another
(`Run.farthestMiss_of_anyDeclaration`). So a unit that stands after declarations
is judged from where they end as if it had begun there (`Run.past_declarations`).
-/

namespace AtomFrontEnd

variable {s t : Setting} {a : Activation} {k : Command} {b c d : Cursor} {o : Outcome} {n : Nat}
  {w : List TokenKind}

/-! ## The same tokens further on -/

/-- From position `n` on, the tokens of `t` are those of `s`, and are read alike. -/
structure Setting.EndsWith (t s : Setting) (n : Nat) : Prop where
  tokenAt_add : ∀ i, t.tokens.tokenAt (n + i) = s.tokens.tokenAt i
  structTypes_eq : t.structTypes = s.structTypes

/-- The cursor `b` stands `n` positions further on than `c`, and so does its farthest
miss, unless it lies before all that `c` has seen. -/
structure Cursor.Shifted (n : Nat) (c b : Cursor) : Prop where
  position_eq : b.position = n + c.position
  farthestMiss_eq : max n b.farthestMiss = n + c.farthestMiss

theorem Setting.EndsWith.kindAt_add (h : t.EndsWith s n) (i : Nat) :
    t.tokens.kindAt (n + i) = s.tokens.kindAt i :=
  congrArg Token.kind (h.tokenAt_add i)

namespace Cursor.Shifted

theorem advance (m : c.Shifted n b) (kind : TokenKind) :
    (c.advance kind).Shifted n (b.advance kind) := by
  unfold Cursor.advance
  split
  · exact m
  · refine ⟨?_, m.farthestMiss_eq⟩
    simp only [m.position_eq, Nat.add_assoc]

theorem miss (m : c.Shifted n b) : c.miss.Shifted n b.miss where
  position_eq := m.position_eq
  farthestMiss_eq := by
    rw [farthestMiss_miss, farthestMiss_miss, ← Nat.max_assoc, m.farthestMiss_eq, m.position_eq]
    omega

theorem rewind (m : c.Shifted n b) (start : Nat) :
    (c.rewind start).Shifted n (b.rewind (n + start)) where
  position_eq := by rw [position_rewind, position_rewind]
  farthestMiss_eq := by
    rw [farthestMiss_rewind, farthestMiss_rewind]
    exact m.farthestMiss_eq

theorem stalledAt (m : c.Shifted n b) : b.stalledAt = n + c.stalledAt := by
  have position := m.position_eq
  have farthestMiss := m.farthestMiss_eq
  unfold Cursor.stalledAt
  omega

end Cursor.Shifted

/-- Without a memory a run can be carried out wherever its tokens stand, with the
same outcome. -/
theorem Run.shifted (hs : s.recalling = false) (ht : t.recalling = false)
    (same : t.EndsWith s n) (h : Run s a k c o d) (m : c.Shifted n b) :
    ∃ b', Run t ⟨a.production, n + a.start⟩ k b o b' ∧ d.Shifted n b' := by
  induction h generalizing b with
  | finish => exact ⟨b, .finish, m⟩
  | fail =>
    rw [← same.tokenAt_add, ← m.position_eq]
    exact ⟨b, .fail, m⟩
  | taken here _ ih =>
    obtain ⟨b', run, m'⟩ := ih (m.advance _)
    rw [← same.kindAt_add, ← m.position_eq] at here
    exact ⟨b', .taken here run, m'⟩
  | missed other _ ih =>
    obtain ⟨b', run, m'⟩ := ih m.miss
    rw [← same.kindAt_add, ← m.position_eq] at other
    exact ⟨b', .missed other run, m'⟩
  | rewound _ ih =>
    obtain ⟨b', run, m'⟩ := ih (m.rewind _)
    exact ⟨b', .rewound run, m'⟩
  | recalled known _ _ => exact absurd known (by simp [Cursor.lookup_of_forgetful hs])
  | entered _ _ _ ihBody ihRest =>
    obtain ⟨b₁, body, m₁⟩ := ihBody m
    rw [Cursor.record_of_forgetful hs] at ihRest
    obtain ⟨b', rest, m'⟩ := ihRest m₁
    rw [← m.position_eq, ← same.structTypes_eq] at body
    exact ⟨b', .called ht body rest, m'⟩
  | aborted _ _ ihBody =>
    obtain ⟨b', body, m'⟩ := ihBody m
    rw [← m.position_eq, ← same.structTypes_eq] at body
    exact ⟨b', .aborted (Cursor.lookup_of_forgetful ht ..) body, m'⟩

theorem Setting.EndsWith.verdict_eq (same : t.EndsWith s n) (m : c.Shifted n b) (o : Outcome) :
    t.verdict o b = s.verdict o c := by
  unfold Setting.verdict
  rw [m.stalledAt, same.tokenAt_add]

/-! ## One declaration after another -/

/-- A call can be cut short where it has matched, and what comes after it left for
later, if this can be done with what comes after its refusal. -/
theorem Run.exists_accept {p : Production} {hit miss miss' : Command} (hs : s.recalling = false)
    (h : Run s a (.call p hit miss) c o d)
    (refused : ∀ c', Run s a miss c' o d → ∃ o' d', Run s a miss' c' o' d' ∧
      (o' = .finished true → Run s a hit d' o d)) :
    ∃ o' d', Run s a (.call p .accept miss') c o' d' ∧
      (o' = .finished true → Run s a hit d' o d) := by
  cases h with
  | recalled known _ => exact absurd known (by simp [Cursor.lookup_of_forgetful hs])
  | @entered _ _ _ _ _ answer c' _ _ _ body rest =>
    rw [Cursor.record_of_forgetful hs] at rest
    cases answer with
    | true => exact ⟨_, c', .called hs body .finish, fun _ => rest⟩
    | false =>
      obtain ⟨o', d', short, goesOn⟩ := refused c' rest
      exact ⟨o', d', .called hs body short, goesOn⟩
  | aborted unknown body => exact ⟨_, d, .aborted unknown body, fun e => by cases e⟩

theorem Run.exists_anyDeclaration (hs : s.recalling = false)
    (h : Run s a (rules s.structTypes .unit) c o d) :
    ∃ o' d', Run s a anyDeclaration c o' d' ∧
      (o' = .finished true → Run s a (.become .unit) d' o d) :=
  h.exists_accept hs fun _ h => h.exists_accept hs fun _ h => h.exists_accept hs fun c' _ =>
    ⟨_, c', .finish, fun e => by cases e⟩

theorem admits_anyDeclaration_iff {structTypes : Bool} :
    anyDeclaration.Admits structTypes [] w ↔ Derives structTypes .declaration w := by
  rw [← spells_eq_iff]
  simp [anyDeclaration, Command.Admits, Command.accept, Command.refuse, Form.declaration,
    Form.choice, Production.form]

/-- While a declaration is looked for and found, tokens are missed only before its end. -/
theorem Run.farthestMiss_of_anyDeclaration (hs : s.recalling = false)
    (h : Run s ⟨.unit, c.position⟩ anyDeclaration c (.finished true) d) :
    d.farthestMiss ≤ c.farthestMiss ∨ d.farthestMiss < d.position := by
  by_cases new : c.farthestMiss < d.farthestMiss
  · refine .inr (Nat.lt_of_not_le fun beyond => ?_)
    obtain ⟨le, admits⟩ := h.admits hs rfl (Nat.le_refl _)
    obtain ⟨rest, more, longer⟩ := h.outlasts_of_missed hs rfl rfl (Nat.le_refl _) rfl new
      (Nat.le_refl _) (Nat.le_trans le beyond)
    have found := admits rfl
    rw [TokenSequence.slice_self, admits_anyDeclaration_iff] at found longer
    -- what is found would be a beginning of a longer declaration
    rw [← TokenSequence.slice_append le beyond, List.append_assoc] at longer
    have e := declaration_unique (y := []) found longer (List.append_nil _).symm
    exact more rfl (List.append_eq_nil_iff.mp (List.append_right_eq_self.mp e.symm)).2
  · exact .inl (Nat.le_of_not_lt new)

/-- A unit takes the declarations that stand before it, and goes on from there, with
nothing missed beyond them. -/
theorem Run.past_declarations (hs : s.recalling = false)
    (hw : Derives s.structTypes (.many .declaration) w) (shown : s.tokens.Shows c.position w)
    (le : c.farthestMiss ≤ c.position)
    (h : Run s ⟨.unit, c.position⟩ (rules s.structTypes .unit) c o d) :
    ∃ c', c'.position = c.position + w.length ∧ c'.farthestMiss ≤ c'.position ∧
      Run s ⟨.unit, c'.position⟩ (rules s.structTypes .unit) c' o d := by
  generalize isMany : Form.many .declaration = f at hw
  induction hw generalizing c with
  | none => exact ⟨c, rfl, le, h⟩
  | @more f v u hv _ _ ihRest =>
    obtain rfl := Form.many.inj isMany
    rw [TokenSequence.shows_append] at shown
    obtain ⟨shownFirst, shownRest⟩ := shown
    obtain ⟨o₁, c₁, first, goesOn⟩ := h.exists_anyDeclaration hs
    have leads : anyDeclaration.Leads s ⟨.unit, c.position⟩ c true (c.position + v.length) :=
      leads_declaration hs (s.spansBelow hs _) (Nat.le_refl _) hv shownFirst fun _ => .finish
    obtain ⟨rfl, there⟩ := leads o₁ c₁ first
    have le₁ : c₁.farthestMiss ≤ c₁.position := by
      have bound := first.farthestMiss_of_anyDeclaration hs
      omega
    rw [← there] at shownRest
    obtain ⟨c', there', le', rest⟩ := ihRest shownRest le₁ ((goesOn rfl).of_become hs) rfl
    refine ⟨c', ?_, le', rest⟩
    rw [there', there, List.length_append, Nat.add_assoc]
  | _ => cases isMany

/-! ## Units after declarations -/

/-- Where declarations stand before position `n`, the unit is recognized as from there. -/
theorem Setting.exists_run_past (hs : s.recalling = false)
    (hw : Derives s.structTypes (.many .declaration) w) (shown : s.tokens.Shows 0 w) :
    ∃ c : Cursor, c.position = w.length ∧ c.farthestMiss ≤ w.length ∧
      Run s ⟨.unit, w.length⟩ (rules s.structTypes .unit) c s.recognize.1 s.recognize.2 := by
  obtain ⟨c, there, le, run⟩ :=
    Run.past_declarations (c := {}) hs hw shown (Nat.le_refl _) s.run_recognize
  rw [Nat.zero_add] at there
  rw [there] at le run
  exact ⟨c, there, le, run⟩

theorem Setting.recognize_of_end (hs : s.recalling = false)
    (hw : Derives s.structTypes (.many .declaration) w) (shown : s.tokens.Shows 0 w)
    (isEnd : s.tokens.kindAt w.length = .endOfInput) :
    s.recognize.1 = .finished true ∧ s.recognize.2.position = w.length := by
  obtain ⟨c, there, -, run⟩ := s.exists_run_past hs hw shown
  rw [← there] at isEnd ⊢
  exact leads_unit_end hs isEnd _ _ run

theorem Setting.EndsWith.recognize (ht : t.recalling = false) (hs : s.recalling = false)
    (hw : Derives t.structTypes (.many .declaration) w) (shown : t.tokens.Shows 0 w)
    (same : t.EndsWith s w.length) :
    t.recognize.1 = s.recognize.1 ∧ s.recognize.2.Shifted w.length t.recognize.2 := by
  obtain ⟨c, there, le, run⟩ := t.exists_run_past ht hw shown
  have start : Cursor.Shifted w.length {} c := ⟨there, Nat.max_eq_left le⟩
  obtain ⟨b, shifted, m⟩ := s.run_recognize.shifted hs ht same start
  rw [← same.structTypes_eq] at shifted
  obtain ⟨e, rfl⟩ := run.unique shifted
  exact ⟨e, m⟩

/-! ## Accepted tokens before others -/

section

variable {front : Array Token} {structTypes : Bool}

theorem Parser.parse_eq_forgetful (q : Parser) :
    q.parse.1 = q.setting.forgetful.verdict q.setting.forgetful.recognize.1
        q.setting.forgetful.recognize.2 ∧
      q.parse.2.position = q.setting.forgetful.recognize.2.position := by
  obtain ⟨same, m⟩ := q.setting.recognize_forgetful
  refine ⟨?_, m.position_eq⟩
  rw [Parser.verdict_parse, same, Setting.verdict_forgetful m]

theorem derives_of_accepted (endless : ∀ t ∈ front, t.kind ≠ .endOfInput)
    (accepted : (Parser.ofTokens front structTypes).parse.1 = .ok ()) :
    Derives structTypes (.many .declaration) (front.toList.map Token.kind) := by
  have h := (Parser.parse_eq_ok_iff _).mp accepted
  obtain ⟨w, hw, e⟩ := derives_unit_iff.mp h
  change (TokenSequence.ofArray front).sentence = w ++ [.endOfInput] at e
  rw [TokenSequence.sentence_ofArray_of_endless endless] at e
  rw [List.append_cancel_right e]
  exact hw

theorem position_of_accepted (endless : ∀ t ∈ front, t.kind ≠ .endOfInput)
    (accepted : (Parser.ofTokens front structTypes).parse.1 = .ok ()) :
    (Parser.ofTokens front structTypes).parse.2.position = front.size := by
  let s := (Parser.ofTokens front structTypes).setting.forgetful
  have shown : s.tokens.Shows 0 (front.toList.map Token.kind) := by
    have shown := TokenSequence.shows_ofArray_append endless #[]
    rw [Array.append_empty] at shown
    exact shown
  have isEnd : s.tokens.kindAt (front.toList.map Token.kind).length = .endOfInput := by
    rw [List.length_map, Array.length_toList, ← TokenSequence.firstEnd_ofArray endless]
    exact s.tokens.kindAt_firstEnd
  have rests := (s.recognize_of_end rfl (derives_of_accepted endless accepted) shown isEnd).2
  rw [List.length_map, Array.length_toList] at rests
  rw [(Parser.parse_eq_forgetful _).2]
  exact rests

end

/-- Declarations that are accepted change nothing for the tokens after them: these are
judged as they are alone, and the cursor comes to rest at the same one of them. -/
theorem parse_append_of_accepted (front back : Array Token) (structTypes : Bool)
    (endless : ∀ t ∈ front, t.kind ≠ .endOfInput)
    (accepted : (Parser.ofTokens front structTypes).parse.1 = .ok ()) :
    (Parser.ofTokens (front ++ back) structTypes).parse.1 =
        (Parser.ofTokens back structTypes).parse.1 ∧
      (Parser.ofTokens (front ++ back) structTypes).parse.2.position =
        front.size + (Parser.ofTokens back structTypes).parse.2.position := by
  by_cases nothing : back = #[]
  · -- the line of the end that completes the tokens may differ, but it is not reported
    subst nothing
    have empty : (Parser.ofTokens #[] structTypes).parse.1 = .ok () :=
      (Parser.parse_eq_ok_iff _).mpr (derives_unit_iff.mpr ⟨[], .none, rfl⟩)
    have atOnce : (Parser.ofTokens #[] structTypes).parse.2.position = 0 :=
      position_of_accepted (by simp) empty
    rw [Array.append_empty, accepted, empty, position_of_accepted endless accepted, atOnce]
    exact ⟨rfl, rfl⟩
  · let s := (Parser.ofTokens back structTypes).setting.forgetful
    let t := (Parser.ofTokens (front ++ back) structTypes).setting.forgetful
    have shown : t.tokens.Shows 0 (front.toList.map Token.kind) :=
      TokenSequence.shows_ofArray_append endless back
    have same : t.EndsWith s (front.toList.map Token.kind).length := by
      refine ⟨fun i => ?_, rfl⟩
      rw [List.length_map, Array.length_toList]
      exact TokenSequence.tokenAt_ofArray_append front back nothing i
    obtain ⟨outcome, m⟩ := same.recognize rfl rfl (derives_of_accepted endless accepted) shown
    obtain ⟨verdict, position⟩ := (Parser.ofTokens (front ++ back) structTypes).parse_eq_forgetful
    obtain ⟨verdict', position'⟩ := (Parser.ofTokens back structTypes).parse_eq_forgetful
    rw [verdict, verdict', position, position']
    refine ⟨?_, ?_⟩
    · exact (congrArg (t.verdict · _) outcome).trans (same.verdict_eq m _)
    · have moved := m.position_eq
      rw [List.length_map, Array.length_toList] at moved
      exact moved

/-- A variable without a semicolon is found wanting after a finished one as it is alone. -/
theorem parse_append_of_accepted_unfinished :
    let front := #[⟨.keyword .kwInt, "int", 1⟩, ⟨.identifier, "x", 1⟩, ⟨.symbol .semicolon, ";", 1⟩]
    let back := #[⟨.keyword .kwInt, "int", 2⟩, ⟨.identifier, "y", 2⟩]
    (∀ t ∈ front, t.kind ≠ .endOfInput) ∧ (Parser.ofTokens front false).parse.1 = .ok () ∧
      (Parser.ofTokens (front ++ back) false).parse.1 =
        .error (.fatal (.endAt 2) (.token .variablesEnd)) ∧
      (Parser.ofTokens (front ++ back) false).parse.2.position =
        3 + (Parser.ofTokens back false).parse.2.position := by
  intro front back
  have endless : ∀ t ∈ front, t.kind ≠ .endOfInput := by decide
  have accepted : (Parser.ofTokens front false).parse.1 = .ok () := by cbv
  have fails : (Parser.ofTokens back false).parse.1 =
      .error (.fatal (.endAt 2) (.token .variablesEnd)) := by cbv
  obtain ⟨verdict, position⟩ := parse_append_of_accepted front back false endless accepted
  exact ⟨endless, accepted, verdict.trans fails, position⟩

end AtomFrontEnd

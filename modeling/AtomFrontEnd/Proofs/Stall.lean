import AtomFrontEnd.Proofs.Farthest

/-!
A stalled unit is reported at the first token that no unit can have there.

Where a unit stalls, declarations lie behind it and none begins. Each of the three
kinds of declarations has then missed a token at which it parts from what stands
there (`Setting.Excludes`), and the report is no nearer than the farthest of these
tokens. It is no farther either: whatever is missed comes after a beginning of some
unit. Since no declaration is a beginning of another (`declaration_unique`), a unit
that begins as the tokens do has the same declarations before the place.
-/

namespace AtomFrontEnd

variable {s : Setting} {a : Activation} {k hit miss : Command} {c d : Cursor} {o : Outcome}
  {p : Production} {matched : Bool} {b : Bool} {u v x y : List TokenKind}

/-! ## Declarations are told apart -/

/-- One declaration, looked for as a unit does. -/
def anyDeclaration : Command :=
  .call .structDef .accept <| .call .funcDef .accept <| .call .varDef .accept .refuse

theorem declaration_unique (hu : Derives b .declaration u) (hv : Derives b .declaration v)
    (e : u ++ x = v ++ y) : u = v := by
  let s : Setting := ⟨.ofKinds (u ++ x), b, false⟩
  have shown : s.tokens.Shows 0 (u ++ x) := TokenSequence.shows_ofKinds [] (u ++ x)
  have leads : ∀ w z, Derives b .declaration w → u ++ x = w ++ z →
      anyDeclaration.Leads s ⟨.unit, 0⟩ {} true w.length := by
    intro w z hw e
    rw [e, TokenSequence.shows_append] at shown
    refine leads_declaration rfl (s.spansBelow rfl _) (Nat.le_refl _) hw shown.1 fun c' there => .finish ?_
    rw [there, Nat.zero_add]
  -- both lengths are where the one run there is comes to its end
  have returns : anyDeclaration.Returns s ⟨.unit, 0⟩ {} := by
    have onTrack : anyDeclaration.OnTrack ⟨.unit, 0⟩ 0 :=
      ⟨false, rfl, Nat.le_refl _, fun h => by cases h⟩
    refine Command.returns_of_onTrack (fun b' _ c sound here => ?_) _ _ onTrack (.initial s)
    have called := exists_run s b'.production c sound
    rw [here] at called
    exact called
  obtain ⟨o, d, run, -⟩ := returns
  have same : u.length = v.length :=
    (leads u x hu rfl o d run).2.symm.trans (leads v y hv e o d run).2
  exact (List.append_inj e same).1

/-! ## Where declarations part from the tokens -/

/-- Nothing that has a sequence of the form first begins with what stands from `i`
up to `j`, the token at `j` included. -/
def Setting.Excludes (s : Setting) (f : Form) (i j : Nat) : Prop :=
  ∀ v, Derives s.structTypes f v → ∀ tail rest, v ++ tail ≠ s.tokens.slice i (j + 1) ++ rest

theorem Setting.Excludes.mono {f : Form} {i j n : Nat} (h : s.Excludes f i j) (ge : i ≤ j)
    (le : j ≤ n) : s.Excludes f i n := by
  intro v hv tail rest e
  rw [← TokenSequence.slice_append (Nat.le_succ_of_le ge) (Nat.succ_le_succ le),
    List.append_assoc] at e
  exact h v hv tail _ e

theorem Setting.Excludes.choice {f g h : Form} {i j : Nat} (hf : s.Excludes f i j)
    (hg : s.Excludes g i j) (hh : s.Excludes h i j) : s.Excludes (.choice f [g, h]) i j := by
  intro v hv
  cases hv with
  | first hv => exact hf v hv
  | second hv =>
    cases hv with
    | first hv => exact hg v hv
    | second hv => exact hh v hv

/-- What stands at `i` begins nothing of the form, and it takes no token beyond the
farthest miss to see it. -/
def Setting.RulesOut (s : Setting) (f : Form) (i : Nat) (d : Cursor) : Prop :=
  ∃ j, i ≤ j ∧ j ≤ d.farthestMiss ∧ s.Excludes f i j

theorem Setting.RulesOut.excludes {f : Form} {i n : Nat} (h : s.RulesOut f i d)
    (le : d.farthestMiss ≤ n) : s.Excludes f i n := by
  obtain ⟨j, ge, reached, excludes⟩ := h
  exact excludes.mono ge (Nat.le_trans reached le)

/-- One kind is enough, if none of the sequences has it in its place. -/
theorem Setting.excludes_of_kind {f : Form} {i n : Nat}
    (other : ∀ v, Derives s.structTypes f v → ∀ tail,
      (v ++ tail)[n]? ≠ some (s.tokens.kindAt (i + n))) : s.Excludes f i (i + n) := by
  intro v hv tail rest e
  refine other v hv tail ?_
  rw [e, List.getElem?_append_left (by rw [TokenSequence.length_slice]; omega)]
  exact TokenSequence.slice_getElem? (by omega)

theorem Setting.excludes_of_typed {f : Form} {i n : Nat} {type : List TokenKind}
    (hType : ResultType s.structTypes type)
    (shown : s.tokens.Shows i type)
    (typed : ∀ v, Derives s.structTypes f v → ∃ t w,
      ResultType s.structTypes t ∧ v = t ++ w ∧
        ∀ tail, (w ++ tail)[n]? ≠ some (s.tokens.kindAt (i + type.length + n))) :
    s.Excludes f i (i + type.length + n) := by
  intro v hv tail rest e
  obtain ⟨t, w, ht, rfl, other⟩ := typed v hv
  rw [TokenSequence.shows_iff] at shown
  rw [← TokenSequence.slice_append (j := i + type.length) (by omega) (by omega), shown,
    List.append_assoc, List.append_assoc] at e
  obtain rfl := ht.unique hType e
  have e' := List.append_cancel_left e
  refine other tail ?_
  rw [e', List.getElem?_append_left (by rw [TokenSequence.length_slice]; omega)]
  exact TokenSequence.slice_getElem? (by omega)

theorem Run.rulesOut_structDef (hs : s.recalling = false)
    (h : Run s ⟨.structDef, c.position⟩ (rules s.structTypes .structDef) c (.finished false) d) :
    s.RulesOut (.phrase .structDef) c.position d := by
  cases h with
  | missed other rest =>
    refine ⟨c.position + 0, Nat.le_refl _, ?_, ?_⟩
    · exact rest.position_le_of_missed hs
    · apply Setting.excludes_of_kind
      intro v hv tail e
      obtain ⟨v, rfl⟩ := exists_of_derives_structDef hv
      exact other (Option.some.inj e).symm
  | taken _ h =>
    cases h with
    | missed _ h => cases h
    | taken _ h =>
      cases h with
      | taken _ h => exact absurd rfl (h.ne_refused_of_persistent rfl)
      | missed other rest =>
        refine ⟨c.position + 2, by omega, ?_, ?_⟩
        · exact rest.position_le_of_missed hs
        · apply Setting.excludes_of_kind
          intro v hv tail e
          obtain ⟨v, rfl⟩ := exists_of_derives_structDef hv
          exact other (Option.some.inj e).symm

theorem Run.refused_typeSpec
    (h : Run s a (rules b .typeSpec) c (.finished false) d) :
    s.tokens.kindAt c.position ∉ TokenKind.typeOpeners b ∧ c.position ≤ d.farthestMiss := by
  rcases h.typeSpec_cases with ⟨notStruct, e, -, reached⟩ | ⟨isStruct, ⟨e, same⟩ | ⟨e, -⟩⟩
  · have notWord := of_decide_eq_false (Outcome.finished.inj e).symm
    refine ⟨?_, reached rfl⟩
    cases b with
    | false => exact notWord
    | true =>
      intro opens
      rcases List.mem_append.mp opens with word | struct
      · exact notWord (List.mem_append_left _ word)
      · exact notStruct (List.mem_singleton.mp struct)
  · -- two tokens were taken that are no type
    obtain rfl := Outcome.finished.inj e
    refine ⟨?_, ?_⟩
    · rw [isStruct]
      decide
    · rw [same]
      exact Nat.le_max_right ..
  · cases e

theorem Run.refused_functionTail (hs : s.recalling = false)
    (h : Run s a functionTail c (.finished false) d) :
    c.position ≤ d.farthestMiss ∧ s.tokens.kindAt c.position ≠ .identifier ∨
      c.position + 1 ≤ d.farthestMiss ∧ s.tokens.kindAt (c.position + 1) ≠ .symbol .leftParen := by
  cases h with
  | missed other rest =>
    exact .inl ⟨rest.position_le_of_missed hs, other⟩
  | taken _ h =>
    cases h with
    | missed other rest =>
      exact .inr ⟨rest.position_le_of_missed hs, other⟩
    | taken _ h => exact absurd rfl (h.ne_refused_of_persistent rfl)

/-- After the type of a function its tail decides. -/
theorem Run.rulesOut_funcDef_of_tail (hs : s.recalling = false) {i : Nat} {type : List TokenKind}
    (hType : ResultType s.structTypes type)
    (shown : s.tokens.Shows i type) (here : c.position = i + type.length)
    (h : Run s a functionTail c (.finished false) d) :
    s.RulesOut (.phrase .funcDef) i d := by
  rcases h.refused_functionTail hs with ⟨reached, other⟩ | ⟨reached, other⟩
  · rw [here] at reached other
    refine ⟨i + type.length + 0, by omega, reached, ?_⟩
    apply Setting.excludes_of_typed hType shown
    intro v hv
    obtain ⟨t, w, ht, rfl⟩ := exists_of_derives_funcDef hv
    exact ⟨t, _, ht, rfl, fun tail e => other (Option.some.inj e).symm⟩
  · rw [here] at reached other
    refine ⟨i + type.length + 1, by omega, reached, ?_⟩
    apply Setting.excludes_of_typed hType shown
    intro v hv
    obtain ⟨t, w, ht, rfl⟩ := exists_of_derives_funcDef hv
    exact ⟨t, _, ht, rfl, fun tail e => other (Option.some.inj e).symm⟩

theorem Run.rulesOut_funcDef (hs : s.recalling = false)
    (h : Run s ⟨.funcDef, c.position⟩ (rules s.structTypes .funcDef) c (.finished false) d) :
    s.RulesOut (.phrase .funcDef) c.position d := by
  rw [rules_funcDef] at h
  obtain ⟨answer, c₁, body, h⟩ := h.called_of_finished hs
  have le := body.start_le hs
  cases answer with
  | true =>
    have shown := s.tokens.shows_slice c.position c₁.position
    refine h.rulesOut_funcDef_of_tail hs (.inl (body.derives hs)) shown ?_
    rw [TokenSequence.length_slice]
    omega
  | false =>
    obtain ⟨notOpener, reached⟩ := body.refused_typeSpec
    cases h with
    | rewound h =>
      cases h with
      | taken isVoid h =>
        rw [Cursor.position_rewind] at isVoid
        refine h.rulesOut_funcDef_of_tail hs (.inr rfl) ⟨isVoid, trivial⟩ ?_
        rw [Cursor.position_advance (by decide), Cursor.position_rewind]
        rfl
      | missed notVoid rest =>
        rw [Cursor.position_rewind] at notVoid
        refine ⟨c.position + 0, Nat.le_refl _, ?_, ?_⟩
        · have grows := rest.farthestMiss_le hs
          rw [Cursor.farthestMiss_miss, Cursor.farthestMiss_rewind] at grows
          omega
        · apply Setting.excludes_of_kind
          intro v hv tail e
          obtain ⟨kind, rest, rfl, mem⟩ := hv.exists_opener rfl
          obtain rfl : kind = s.tokens.kindAt c.position := Option.some.inj e
          rcases List.mem_cons.mp mem with isVoid | opens
          · exact notVoid isVoid
          · exact notOpener opens

theorem Run.rulesOut_varDef (hs : s.recalling = false)
    (h : Run s ⟨.varDef, c.position⟩ (rules s.structTypes .varDef) c (.finished false) d) :
    s.RulesOut (.phrase .varDef) c.position d := by
  obtain ⟨answer, c₁, body, h⟩ := h.called_of_finished hs
  have le := body.start_le hs
  cases answer with
  | true =>
    cases h with
    | taken _ h => exact absurd rfl (h.ne_refused_of_persistent rfl)
    | missed other rest =>
      have shown := s.tokens.shows_slice c.position c₁.position
      have length : c.position + (s.tokens.slice c.position c₁.position).length = c₁.position := by
        rw [TokenSequence.length_slice]
        omega
      refine ⟨c.position + (s.tokens.slice c.position c₁.position).length + 0, by omega, ?_, ?_⟩
      · rw [length]
        exact rest.position_le_of_missed hs
      · apply Setting.excludes_of_typed (.inl (body.derives hs)) shown
        intro v hv
        obtain ⟨t, mark, w, ht, rfl, -⟩ := exists_of_derives_varDef hv
        refine ⟨t, _, .inl ht, rfl, fun tail e => other ?_⟩
        rw [length] at e
        exact (Option.some.inj e).symm
  | false =>
    obtain ⟨notOpener, reached⟩ := body.refused_typeSpec
    refine ⟨c.position + 0, Nat.le_refl _, Nat.le_trans reached (h.farthestMiss_le hs), ?_⟩
    apply Setting.excludes_of_kind
    intro v hv tail e
    obtain ⟨kind, rest, rfl, mem⟩ := hv.exists_opener rfl
    obtain rfl : kind = s.tokens.kindAt c.position := Option.some.inj e
    exact notOpener mem

/-! ## Stalled units -/

/-- A unit begun at `i` has stalled at `p`: declarations stand before `p`, and
neither the end nor another declaration stands there. -/
structure Setting.StallsAt (s : Setting) (i p : Nat) (d : Cursor) : Prop where
  ge : i ≤ p
  position_eq : d.position = p
  reached : p ≤ d.farthestMiss
  declarations : Derives s.structTypes (.many .declaration) (s.tokens.slice i p)
  not_end : s.tokens.kindAt p ≠ .endOfInput
  excludes : s.Excludes .declaration p d.farthestMiss

theorem Run.stallsAt_of_refused (hs : s.recalling = false) {c₁ c₂ c₃ : Cursor}
    (struct : Run s ⟨.structDef, c.position⟩ (rules s.structTypes .structDef) c (.finished false) c₁)
    (func : Run s ⟨.funcDef, c₁.position⟩ (rules s.structTypes .funcDef) c₁ (.finished false) c₂)
    (var : Run s ⟨.varDef, c₂.position⟩ (rules s.structTypes .varDef) c₂ (.finished false) c₃)
    (h : Run s a (.token .endOfInput .accept .refuse) c₃ (.finished false) d) :
    s.StallsAt c.position c.position d := by
  have same₁ := struct.position_of_refused rfl
  have same₂ := func.position_of_refused rfl
  have same₃ := var.position_of_refused rfl
  have noStruct := struct.rulesOut_structDef hs
  have noFunc := func.rulesOut_funcDef hs
  have noVar := var.rulesOut_varDef hs
  have grows₂ := func.farthestMiss_le hs
  have grows₃ := var.farthestMiss_le hs
  rw [same₁] at noFunc same₂
  rw [same₂] at noVar same₃
  cases h with
  | taken _ h => cases h
  | missed notEnd h =>
    cases h
    rw [same₃] at notEnd
    refine ⟨Nat.le_refl _, same₃, ?_, ?_, notEnd, ?_⟩
    · rw [Cursor.farthestMiss_miss]
      omega
    · rw [TokenSequence.slice_self]
      exact .none
    · refine .choice (noStruct.excludes ?_) (noFunc.excludes ?_) (noVar.excludes ?_)
      all_goals
        rw [Cursor.farthestMiss_miss]
        omega

/-- A stalled unit has taken declarations before the place where it has stalled. -/
theorem Run.stallsAt (hs : s.recalling = false) (sound : c.Sound s)
    (h : Run s ⟨.unit, c.position⟩ (rules s.structTypes .unit) c (.finished false) d) :
    ∃ p, s.StallsAt c.position p d := by
  induction n : s.tokens.firstEnd - c.position using Nat.strongRecOn generalizing c with
  | _ n ih =>
    subst n
    have declared : ∀ {q : Production} {c₀ c₁ : Cursor} {b : Activation}, q.nullable = false →
        (∀ w, Derives s.structTypes q.form w → Derives s.structTypes .declaration w) →
        c₀.position = c.position → c₀.Sound s →
        Run s ⟨q, c₀.position⟩ (rules s.structTypes q) c₀ (.finished true) c₁ →
        Run s b (.become .unit) c₁ (.finished false) d → ∃ p, s.StallsAt c.position p d := by
      intro q c₀ c₁ b nonempty isDeclaration here sound₀ body rest
      obtain ⟨sound₁, far⟩ := body.sound sound₀
      have far := far rfl nonempty
      have bound := sound₁.position_le
      obtain ⟨p, stalls⟩ := ih _ (by omega) sound₁ (rest.of_become hs) rfl
      have ge := stalls.ge
      refine ⟨p, by omega, stalls.position_eq, stalls.reached, ?_, stalls.not_end, stalls.excludes⟩
      rw [← here, ← TokenSequence.slice_append (Nat.le_of_lt far) ge]
      exact .more (isDeclaration _ (body.derives hs)) stalls.declarations
    obtain ⟨answer₁, c₁, struct, h⟩ := h.called_of_finished hs
    cases answer₁ with
    | true => exact declared (q := .structDef) rfl (fun w h => .first h) rfl sound struct h
    | false =>
      have same₁ := struct.position_of_refused rfl
      have sound₁ := (struct.sound sound).1
      obtain ⟨answer₂, c₂, func, h⟩ := h.called_of_finished hs
      cases answer₂ with
      | true => exact declared (q := .funcDef) rfl (fun w h => .second (.first h)) same₁ sound₁ func h
      | false =>
        have same₂ := func.position_of_refused rfl
        have sound₂ := (func.sound sound₁).1
        obtain ⟨answer₃, c₃, var, h⟩ := h.called_of_finished hs
        cases answer₃ with
        | true =>
          exact declared (q := .varDef) rfl (fun w h => .second (.second h)) (same₂.trans same₁)
            sound₂ var h
        | false => exact ⟨_, struct.stallsAt_of_refused hs func var h⟩

/-! ## The first violation -/

/-- Units that begin with the same declarations go on with declarations. -/
theorem exists_of_declarations (hu : Derives b (.many .declaration) u)
    (hv : Derives b (.many .declaration) v) (e : v ++ [.endOfInput] = u ++ x) :
    ∃ w, Derives b (.many .declaration) w ∧ w ++ [.endOfInput] = x := by
  generalize isMany : Form.many .declaration = f at hu
  induction hu generalizing v with
  | none =>
    obtain rfl := Form.many.inj isMany
    exact ⟨v, hv, e⟩
  | @more g u₁ u₂ hFirst hRest ihFirst ihRest =>
    obtain rfl := Form.many.inj isMany
    rw [List.append_assoc] at e
    rw [← spells_eq_iff, spells_many] at hv
    rcases hv with ⟨v₁, hv₁, v₂, hv₂, rfl⟩ | rfl
    · rw [List.append_assoc] at e
      obtain rfl := declaration_unique hv₁ hFirst e
      exact ihRest hv₂ (List.append_cancel_left e) rfl
    · obtain ⟨kind, rest, rfl, mem⟩ := hFirst.exists_opener rfl
      obtain rfl := (List.cons.inj e).1
      exact absurd mem (by cases b <;> decide)
  | _ => cases isMany

theorem Setting.StallsAt.not_viable {p : Nat} (h : s.StallsAt 0 p d) :
    ¬ Viable s.structTypes (s.tokens.slice 0 (d.farthestMiss + 1)) := by
  intro isViable
  obtain ⟨rest, viable⟩ := isViable
  have reached := h.reached
  obtain ⟨v, hv, e⟩ := derives_unit_iff.mp viable
  rw [← TokenSequence.slice_append (Nat.zero_le p) (by omega), List.append_assoc] at e
  obtain ⟨w, hw, e⟩ := exists_of_declarations h.declarations hv e.symm
  rw [← spells_eq_iff, spells_many] at hw
  rcases hw with ⟨w₁, hw₁, w₂, -, rfl⟩ | rfl
  · rw [List.append_assoc] at e
    exact h.excludes w₁ hw₁ _ rest e
  · rw [TokenSequence.slice_eq_cons (by omega)] at e
    exact h.not_end (List.cons.inj e).1.symm

theorem Setting.viable_of_finished (hs : s.recalling = false)
    (finished : s.recognize.1 = .finished matched) :
    Viable s.structTypes (s.tokens.slice 0 s.recognize.2.farthestMiss) := by
  have run := s.run_recognize
  rw [finished] at run
  by_cases none : s.recognize.2.farthestMiss = 0
  · rw [none, TokenSequence.slice_self]
    exact viable_of_declarations (w := []) .none
  · obtain ⟨rest, h⟩ := run.continues_of_missed hs (hopeful_rules _ _ (by decide))
      (tidy_rules _ _) (Nat.le_refl _) rfl (Nat.pos_of_ne_zero none) (Nat.le_refl _)
      (Nat.zero_le _)
    rw [TokenSequence.slice_self, admits_rules_iff] at h
    exact viable_of_declarations (w := rest) h

theorem Setting.exists_of_verdict_stalled {o : Outcome} {t : Token}
    (h : s.verdict o c = .error (.stalled t)) :
    o = .finished false ∧ t = s.tokens.tokenAt c.stalledAt := by
  cases o with
  | finished matched =>
    cases matched with
    | true => cases h
    | false =>
      cases h
      exact ⟨rfl, rfl⟩
  | failed token cause => cases h

/-- A stalled unit is reported at the first violation: what stands before the
reported token is viable, and with it no longer so. -/
theorem viable_of_parse_stalled (tokens : Array Token) (structTypes : Bool) (t : Token)
    (h : (Parser.ofTokens tokens structTypes).parse.1 = .error (.stalled t)) :
    let ts := TokenSequence.ofArray tokens
    let i := (Parser.ofTokens tokens structTypes).parse.2.cursor.stalledAt
    ts.toList[i]? = some t ∧ Viable structTypes (ts.kinds.take i) ∧
      ¬ Viable structTypes (ts.kinds.take (i + 1)) := by
  intro ts i
  let s := (Parser.ofTokens tokens structTypes).setting
  rw [Parser.verdict_parse] at h
  obtain ⟨stalled, rfl⟩ := Setting.exists_of_verdict_stalled h
  obtain ⟨same, mirrors⟩ := s.recognize_forgetful
  have run := s.forgetful.run_recognize
  have refused : s.forgetful.recognize.1 = .finished false := same ▸ stalled
  have viable := Setting.viable_of_finished (s := s.forgetful) rfl refused
  rw [refused] at run
  obtain ⟨p, stalls⟩ := Run.stallsAt (c := {}) rfl (.initial _) run
  have here : i = s.forgetful.recognize.2.farthestMiss := by
    show max s.recognize.2.farthestMiss s.recognize.2.position = _
    rw [mirrors.farthestMiss_eq, mirrors.position_eq, stalls.position_eq]
    exact Nat.max_eq_left stalls.reached
  have within := (run.within rfl (Nat.zero_le _) (Nat.zero_le _) (Nat.zero_le _)).2
  have less : i < ts.size := by
    have bound := ts.firstEnd_lt_size
    rw [here]
    exact Nat.lt_of_le_of_lt within bound
  refine ⟨ts.toList_getElem? less, ?_, ?_⟩
  · rw [TokenSequence.take_kinds (Nat.le_of_lt less), here]
    exact viable
  · rw [TokenSequence.take_kinds less, here]
    exact stalls.not_viable

/-- A number after a type is where a variable or a function parts from a unit. -/
theorem viable_of_parse_stalled_number :
    let parser := Parser.ofTokens #[⟨.keyword .kwInt, "int", 1⟩, ⟨.literal .integer, "3", 1⟩] false
    parser.parse.1 = .error (.stalled ⟨.literal .integer, "3", 1⟩) ∧
      Viable false [.keyword .kwInt] ∧ ¬ Viable false [.keyword .kwInt, .literal .integer] := by
  intro parser
  have stalls : parser.parse.1 = .error (.stalled ⟨.literal .integer, "3", 1⟩) := by cbv
  obtain ⟨found, viable, notViable⟩ := viable_of_parse_stalled _ _ _ stalls
  generalize (Parser.ofTokens _ false).parse.2.cursor.stalledAt = i at found viable notViable
  rcases i with _ | _ | _ | i
  · cases found
  · exact ⟨stalls, viable, notViable⟩
  · cases found
  · cases found

end AtomFrontEnd

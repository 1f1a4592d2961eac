import AtomFrontEnd.Proofs.Acceptance

/-!
Where a parse fails, a sentence could have gone on.

A production that fails for good has demanded something, and what stands before
the place at which it did can be completed. `Command.hopeful` checks that a body
demands only what it could go on with: after whatever is taken or matched there
is a way to a match. A failure inside a called production comes to the same one
level up, as its caller could go on after it.

`struct` must have a name after it even where the two are no type. The grammar
that the beginning is viable in is therefore the one in which they are.
-/

namespace AtomFrontEnd

/-! ## Every form describes something -/

/-- The form describes some sequence. -/
def Form.Inhabited (structTypes : Bool) (f : Form) : Prop := ∃ w, Derives structTypes f w

namespace Form.Inhabited

variable {b : Bool} {f g : Form}

theorem token (kind : TokenKind) : (Form.token kind).Inhabited b := ⟨_, .token kind⟩

theorem phrase {p : Phrase} : (grammar b p).Inhabited b → (Form.phrase p).Inhabited b
  | ⟨_, h⟩ => ⟨_, .phrase h⟩

theorem next : f.Inhabited b → g.Inhabited b → (Form.next f g).Inhabited b
  | ⟨_, hf⟩, ⟨_, hg⟩ => ⟨_, .next hf hg⟩

theorem first : f.Inhabited b → (Form.either f g).Inhabited b
  | ⟨_, h⟩ => ⟨_, .first h⟩

theorem second : g.Inhabited b → (Form.either f g).Inhabited b
  | ⟨_, h⟩ => ⟨_, .second h⟩

theorem many (f : Form) : (Form.many f).Inhabited b := ⟨[], .none⟩

theorem optional (f : Form) : (Form.optional f).Inhabited b := ⟨[], .second .empty⟩

end Form.Inhabited

open Form.Inhabited in
theorem inhabited_phrase (b : Bool) (p : Phrase) : (Form.phrase p).Inhabited b := by
  have typeSpec : (Form.phrase .typeSpec).Inhabited b := phrase (first (token _))
  have primary : (Form.phrase .primary).Inhabited b := phrase (first (next (token _) (optional _)))
  have suffixed : (Form.phrase .suffixed).Inhabited b := phrase (next primary (many _))
  have unary : (Form.phrase .unary).Inhabited b := phrase (second suffixed)
  have cast : (Form.phrase .cast).Inhabited b := phrase (second unary)
  have product : (Form.phrase (.binary .product)).Inhabited b := phrase (next cast (many _))
  have sum : (Form.phrase (.binary .sum)).Inhabited b := phrase (next product (many _))
  have relation : (Form.phrase (.binary .relation)).Inhabited b := phrase (next sum (many _))
  have equality : (Form.phrase (.binary .equality)).Inhabited b := phrase (next relation (many _))
  have conjunction : (Form.phrase (.binary .conjunction)).Inhabited b :=
    phrase (next equality (many _))
  have disjunction : (Form.phrase (.binary .disjunction)).Inhabited b :=
    phrase (next conjunction (many _))
  have block : (Form.phrase .block).Inhabited b := phrase (next (token _) (next (many _) (token _)))
  have declarator : Form.declarator.Inhabited b := next (token _) (optional _)
  cases p with
  | unit => exact phrase (next (many _) (token _))
  | structDef =>
    exact phrase (next (token _) (next (token _) (next (token _) (next (many _) (next (token _)
      (token _))))))
  | varDef => exact phrase (next typeSpec (next (next declarator (many _)) (token _)))
  | funcDef =>
    exact phrase (next (second (token _)) (next (token _) (next (next (token _) (next (optional _)
      (token _))) block)))
  | param => exact phrase (next typeSpec declarator)
  | typeSpec => exact typeSpec
  | arrayMark => exact phrase (next (token _) (token _))
  | statement => exact phrase (first block)
  | block => exact block
  | expression => exact phrase (second disjunction)
  | binary l => cases l <;> assumption
  | cast => exact cast
  | unary => exact unary
  | suffixed => exact suffixed
  | primary => exact primary

open Form.Inhabited in
theorem inhabited_form (b : Bool) (p : Production) : p.form.Inhabited b := by
  cases p with
  | unit | suffixes | moreOperands => exact many _
  | fields => exact next (many _) (next (token _) (token _))
  | moreVars => exact next (optional _) (next (many _) (token _))
  | moreParams => exact next (many _) (next (token _) (inhabited_phrase b .block))
  | blockItems | moreArguments => exact next (many _) (token _)
  | _ => exact inhabited_phrase b _

/-! ## The grammar with structures as types -/

theorem grammar_eq_true (b : Bool) {p : Phrase} (hp : p ≠ .typeSpec) :
    grammar b p = grammar true p := by
  cases p with
  | binary l => cases l <;> rfl
  | typeSpec => exact absurd rfl hp
  | _ => rfl

theorem rules_eq_true (b : Bool) {p : Production} (hp : p ≠ .typeSpec) :
    rules b p = rules true p := by
  cases p with
  | typeSpec => exact absurd rfl hp
  | _ => rfl

theorem Derives.widen {b : Bool} {f : Form} {w : List TokenKind} (h : Derives b f w) :
    Derives true f w := by
  induction h with
  | empty => exact .empty
  | token kind => exact .token kind
  | @phrase p w h ih =>
    by_cases hp : p = .typeSpec
    · subst hp
      have spec : Derives b (.phrase .typeSpec) w := .phrase h
      rw [derives_typeSpec_iff] at spec ⊢
      rcases spec with word | word | word | ⟨-, word⟩
      · exact .inl word
      · exact .inr (.inl word)
      · exact .inr (.inr (.inl word))
      · exact .inr (.inr (.inr ⟨rfl, word⟩))
    · rw [grammar_eq_true b hp] at ih
      exact .phrase ih
  | next _ _ ihFirst ihSecond => exact .next ihFirst ihSecond
  | first _ ih => exact .first ih
  | second _ ih => exact .second ih
  | none => exact .none
  | more _ _ ihFirst ihRest => exact .more ihFirst ihRest

/-! ## Commands that can come to a match -/

namespace Command

/-- Whether a match can be reached from the command without going back. -/
def completable : Command → Bool
  | finish matched => matched
  | fail _ => false
  | token _ hit miss => hit.completable || miss.completable
  | call _ hit miss => hit.completable || miss.completable
  | rewind _ => false

/-- Whether the command fails for want of a token of the kind. -/
def demands (kind : TokenKind) : Command → Bool
  | fail (.token missing) => missing.kind == kind
  | _ => false

/-- Whether the command fails for want of a part. -/
def demandsPart : Command → Bool
  | fail (.part _) => true
  | _ => false

/-- Whether after each token taken and each production matched there is a way to a
match, and what fails demands just that token or that part. -/
def hopeful : Command → Bool
  | finish _ => true
  | fail _ => false
  | token kind hit miss => hit.completable && hit.hopeful && (miss.hopeful || miss.demands kind)
  | call q hit miss =>
    hit.completable && hit.hopeful && (miss.hopeful || !q.strays && miss.demandsPart)
  | rewind next => next.hopeful

/-- With `u` behind it, the command admits a sequence that begins with `v`. -/
def Continues (structTypes : Bool) (k : Command) (u v : List TokenKind) : Prop :=
  ∃ rest, k.Admits structTypes u (v ++ rest)

variable {b : Bool} {k hit miss next : Command} {u v w : List TokenKind} {kind : TokenKind}
  {q : Production}

theorem continues_of_completable (b : Bool) (hk : k.completable = true) (u : List TokenKind) :
    k.Continues b u u := by
  induction k generalizing u with
  | finish matched => exact ⟨[], hk, (List.append_nil u).symm⟩
  | fail => cases hk
  | token kind hit miss ihHit ihMiss =>
    simp only [completable, Bool.or_eq_true] at hk
    rcases hk with hHit | hMiss
    · by_cases isEnd : kind = .endOfInput
      · obtain ⟨rest, h⟩ := ihHit hHit u
        refine ⟨rest, .inl ?_⟩
        rw [if_pos isEnd]
        exact h
      · obtain ⟨rest, h⟩ := ihHit hHit (u ++ [kind])
        refine ⟨kind :: rest, .inl ?_⟩
        rw [if_neg isEnd]
        rw [List.append_assoc] at h
        exact h
    · obtain ⟨rest, h⟩ := ihMiss hMiss u
      exact ⟨rest, .inr h⟩
  | call q hit miss ihHit ihMiss =>
    simp only [completable, Bool.or_eq_true] at hk
    rcases hk with hHit | hMiss
    · obtain ⟨v, hv⟩ := inhabited_form b q
      obtain ⟨rest, h⟩ := ihHit hHit (u ++ v)
      rw [List.append_assoc] at h
      exact ⟨v ++ rest, .inl ⟨v, hv, h⟩⟩
    · obtain ⟨rest, h⟩ := ihMiss hMiss u
      exact ⟨rest, .inr h⟩
  | rewind => cases hk

theorem Continues.of_append (h : k.Continues b u (v ++ w)) : k.Continues b u v := by
  obtain ⟨rest, h⟩ := h
  rw [List.append_assoc] at h
  exact ⟨w ++ rest, h⟩

theorem continues_token (hHit : hit.completable = true) (notEnd : kind ≠ .endOfInput)
    (miss : Command) (u : List TokenKind) : (token kind hit miss).Continues b u (u ++ [kind]) := by
  obtain ⟨rest, h⟩ := continues_of_completable b hHit (u ++ [kind])
  refine ⟨rest, .inl ?_⟩
  rw [if_neg notEnd]
  exact h

theorem continues_call (hHit : hit.completable = true) (h : Derives b q.form (v ++ w))
    (miss : Command) (u : List TokenKind) : (call q hit miss).Continues b u (u ++ v) := by
  obtain ⟨rest, after⟩ := continues_of_completable b hHit (u ++ (v ++ w))
  refine ⟨w ++ rest, .inl ⟨v ++ w, h, ?_⟩⟩
  simp only [List.append_assoc] at after ⊢
  exact after

theorem eq_fail_of_demands (h : k.demands kind = true) :
    ∃ missing : MissingToken, missing.kind = kind ∧ k = fail (.token missing) := by
  cases k with
  | fail cause =>
    cases cause with
    | token missing => exact ⟨missing, by simpa [demands] using h, rfl⟩
    | part => cases h
  | _ => cases h

theorem eq_fail_of_demandsPart (h : k.demandsPart = true) :
    ∃ missing : MissingPart, k = fail (.part missing) := by
  cases k with
  | fail cause =>
    cases cause with
    | token => cases h
    | part missing => exact ⟨missing, rfl⟩
  | _ => cases h

end Command

theorem hopeful_rules (structTypes : Bool) (p : Production) (hp : p ≠ .typeSpec) :
    (rules structTypes p).hopeful = true := by
  cases structTypes <;> cases p with
  | binary l | moreOperands l => cases l <;> decide
  | typeSpec => exact absurd rfl hp
  | _ => decide

/-! ## Failures -/

/-- The kind that is expected, if it is one only. -/
def Expectation.wanted : Expectation → List TokenKind
  | token missing => [missing.kind]
  | part _ => []

/-- The cursor stands at the token that is blamed, which is not the expected one. -/
structure Setting.Blames (s : Setting) (d : Cursor) (t : Token) (cause : Expectation) : Prop where
  token_eq : t = s.tokens.tokenAt d.position
  not_wanted : t.kind ∉ cause.wanted

variable {s : Setting} {a : Activation} {k : Command} {c d : Cursor} {o : Outcome} {t : Token}
  {cause : Expectation}

/-- All that a type can do: it is a word, or something else stands there; or after
`struct` a name stands, which makes a type or not, or fails to stand. -/
theorem Run.typeSpec_cases {b : Bool} (h : Run s a (rules b .typeSpec) c o d) :
    (s.tokens.kindAt c.position ≠ .keyword .kwStruct ∧
      o = .finished (decide (s.tokens.kindAt c.position ∈ TokenKind.typeOpeners false)) ∧
      d.farthestMiss ≤ max c.farthestMiss c.position ∧
      (o = .finished false → c.position ≤ d.farthestMiss)) ∨
    s.tokens.kindAt c.position = .keyword .kwStruct ∧
      (o = .finished b ∧ d.farthestMiss = max c.farthestMiss c.position ∨
        o = .failed (s.tokens.tokenAt d.position) (.token .structName) ∧
          d.position = c.position + 1 ∧ s.tokens.kindAt d.position ≠ .identifier) := by
  have words : TokenKind.typeOpeners false =
      [.keyword .kwInt, .keyword .kwDouble, .keyword .kwChar] := rfl
  cases h with
  | taken isInt rest =>
    cases rest
    refine .inl ⟨by simp [isInt], by simp [words, isInt], ?_, by simp⟩
    have same := Cursor.farthestMiss_advance (.keyword .kwInt) c
    omega
  | missed notInt h =>
    cases h with
    | taken isDouble rest =>
      cases rest
      rw [Cursor.position_miss] at isDouble
      refine .inl ⟨by simp [isDouble], by simp [words, isDouble], ?_, by simp⟩
      have same := Cursor.farthestMiss_advance (.keyword .kwDouble) c.miss
      rw [Cursor.farthestMiss_miss] at same
      omega
    | missed notDouble h =>
      cases h with
      | taken isChar rest =>
        cases rest
        simp only [Cursor.position_miss] at isChar
        refine .inl ⟨by simp [isChar], by simp [words, isChar], ?_, by simp⟩
        have same := Cursor.farthestMiss_advance (.keyword .kwChar) c.miss.miss
        rw [Cursor.farthestMiss_miss, Cursor.farthestMiss_miss, Cursor.position_miss] at same
        omega
      | missed notChar h =>
        simp only [Cursor.position_miss] at notDouble notChar
        cases h with
        | missed notStruct rest =>
          cases rest
          simp only [Cursor.position_miss] at notStruct
          refine .inl ⟨notStruct, ?_, ?_, ?_⟩
          · simp [words, notInt, notDouble, notChar]
          · simp
          · intro _
            exact Nat.le_max_right ..
        | taken isStruct h =>
          refine .inr ⟨isStruct, ?_⟩
          cases h with
          | taken _ rest =>
            cases rest
            exact .inl ⟨rfl, by simp⟩
          | missed unnamed rest =>
            cases rest
            exact .inr ⟨rfl, rfl, unnamed⟩

theorem Run.failed_typeSpec {b : Bool}
    (h : Run s a (rules b .typeSpec) c (.failed t cause) d) :
    s.Blames d t cause ∧ d.position = c.position + 1 ∧
      s.tokens.kindAt c.position = .keyword .kwStruct ∧ cause = .token .structName := by
  rcases h.typeSpec_cases with ⟨-, e, -⟩ | ⟨isStruct, ⟨e, -⟩ | ⟨e, next, unnamed⟩⟩
  · cases e
  · cases e
  · obtain ⟨rfl, rfl⟩ := Outcome.failed.inj e
    refine ⟨⟨rfl, ?_⟩, next, isStruct, rfl⟩
    intro wanted
    exact unnamed (List.mem_singleton.mp wanted)

/-- A called production that fails does so after the beginning of a sequence of its form. -/
theorem Run.derives_of_aborted {p : Production} {b : Bool}
    (body : Run s ⟨p, c.position⟩ (rules b p) c (.failed t cause) d)
    (inside : p ≠ .typeSpec → s.Blames d t cause ∧
      (rules b p).Continues true (s.tokens.slice c.position c.position)
        (s.tokens.slice c.position d.position ++ cause.wanted)) :
    s.Blames d t cause ∧ ∃ rest, Derives true p.form
      (s.tokens.slice c.position d.position ++ cause.wanted ++ rest) := by
  by_cases isType : p = .typeSpec
  · subst isType
    obtain ⟨blames, stop, isStruct, rfl⟩ := body.failed_typeSpec
    refine ⟨blames, [], ?_⟩
    rw [stop, TokenSequence.slice_succ (Nat.le_refl _), TokenSequence.slice_self, isStruct]
    exact derives_typeSpec_iff.mpr (.inr (.inr (.inr ⟨rfl, rfl⟩)))
  · obtain ⟨blames, rest, h⟩ := inside isType
    rw [TokenSequence.slice_self, rules_eq_true _ isType, admits_rules_iff] at h
    exact ⟨blames, rest, h⟩

/-- A failed production has blamed a token before which it could have gone on to a
match, and with the token that it expected as well. -/
theorem Run.continues_of_failed (hs : s.recalling = false) (h : Run s a k c o d)
    (hk : k.hopeful = true) (tidy : k.tidy = true) (le : a.start ≤ c.position)
    (failed : o = .failed t cause) :
    s.Blames d t cause ∧ k.Continues true (s.tokens.slice a.start c.position)
      (s.tokens.slice a.start d.position ++ cause.wanted) := by
  induction h with
  | finish => cases failed
  | fail => cases hk
  | taken here _ ih =>
    simp only [Command.hopeful, Bool.and_eq_true] at hk
    simp only [Command.tidy, Bool.and_eq_true] at tidy
    obtain ⟨blames, rest, h⟩ := ih hk.1.2 tidy.1 (Cursor.le_position_advance _ le) failed
    exact ⟨blames, rest, h.of_taken here le⟩
  | missed other rest ih =>
    simp only [Command.hopeful, Bool.and_eq_true, Bool.or_eq_true] at hk
    simp only [Command.tidy, Bool.and_eq_true] at tidy
    obtain ⟨⟨completable, -⟩, hopeful | demands⟩ := hk
    · obtain ⟨blames, rest, h⟩ := ih hopeful tidy.2 le failed
      exact ⟨blames, rest, .inr h⟩
    · -- the token is demanded, and the command could go on after it
      obtain ⟨missing, rfl, rfl⟩ := Command.eq_fail_of_demands demands
      cases rest
      obtain ⟨rfl, rfl⟩ := Outcome.failed.inj failed
      refine ⟨⟨rfl, ?_⟩, ?_⟩
      · intro wanted
        exact other (List.mem_singleton.mp wanted)
      · exact Command.continues_token completable missing.kind_ne_endOfInput _ _
  | rewound _ ih =>
    obtain ⟨blames, rest, h⟩ := ih hk tidy (Nat.le_of_eq (Cursor.position_rewind ..).symm) failed
    exact ⟨blames, rest, h.of_rewound⟩
  | recalled known _ _ => exact absurd known (by simp [Cursor.lookup_of_forgetful hs])
  | @entered a p hit miss c matched c' o d _ body rest _ ihRest =>
    simp only [Command.hopeful, Bool.and_eq_true, Bool.or_eq_true, Bool.not_eq_true'] at hk
    simp only [Command.tidy, Bool.and_eq_true, Bool.or_eq_true, Bool.not_eq_true'] at tidy
    obtain ⟨⟨completable, hopeful⟩, hMiss⟩ := hk
    obtain ⟨⟨tidyHit, tidyMiss⟩, straying⟩ := tidy
    rw [Cursor.position_record] at ihRest
    have bodyLe := body.start_le hs
    have le' := Nat.le_trans le bodyLe
    cases matched with
    | true =>
      obtain ⟨blames, rest, h⟩ := ihRest hopeful tidyHit le' failed
      exact ⟨blames, rest, h.of_matched le bodyLe (body.derives hs).widen⟩
    | false =>
      rcases hMiss with hopefulMiss | ⟨stays, demands⟩
      · obtain ⟨blames, rest, h⟩ := ihRest hopefulMiss tidyMiss le' failed
        exact ⟨blames, rest, h.of_refused straying body⟩
      · -- the part is demanded, and the command could go on after it
        obtain ⟨missing, rfl⟩ := Command.eq_fail_of_demandsPart demands
        cases rest
        obtain ⟨rfl, rfl⟩ := Outcome.failed.inj failed
        refine ⟨⟨rfl, List.not_mem_nil⟩, ?_⟩
        rw [Cursor.position_record, body.position_of_refused stays]
        obtain ⟨w, hw⟩ := inhabited_form true p
        exact Command.continues_call completable (v := []) hw _ _
  | @aborted a p hit miss c t' cause' d _ body ihBody =>
    obtain ⟨rfl, rfl⟩ := Outcome.failed.inj failed
    simp only [Command.hopeful, Bool.and_eq_true] at hk
    obtain ⟨blames, rest, h⟩ := body.derives_of_aborted fun isType =>
      ihBody (hopeful_rules _ _ isType) (tidy_rules _ _) (Nat.le_refl _) rfl
    refine ⟨blames, ?_⟩
    have goesOn := Command.continues_call hk.1.1 h miss (s.tokens.slice a.start c.position)
    rw [← List.append_assoc, TokenSequence.slice_append le (body.start_le hs)] at goesOn
    exact goesOn

/-! ## Units -/

theorem Viable.of_append {b : Bool} {v w : List TokenKind} (h : Viable b (v ++ w)) : Viable b v := by
  obtain ⟨rest, h⟩ := h
  rw [List.append_assoc] at h
  exact ⟨w ++ rest, h⟩

/-- A beginning of declarations is viable, as the end may follow them. -/
theorem viable_of_declarations {b : Bool} {v w : List TokenKind}
    (h : Derives b (.many .declaration) (v ++ w)) : Viable b v := by
  refine ⟨w ++ [.endOfInput], derives_unit_iff.mpr ⟨_, h, ?_⟩⟩
  exact (List.append_assoc ..).symm

theorem Setting.viable_of_failed (hs : s.recalling = false)
    (failed : s.recognize.1 = .failed t cause) :
    s.Blames s.recognize.2 t cause ∧
      Viable true (s.tokens.slice 0 s.recognize.2.position ++ cause.wanted) := by
  have run := s.run_recognize
  rw [failed] at run
  obtain ⟨blames, rest, h⟩ := run.continues_of_failed hs (hopeful_rules _ _ (by decide))
    (tidy_rules _ _) (Nat.le_refl _) rfl
  refine ⟨blames, viable_of_declarations (w := rest) ?_⟩
  exact (admits_rules_iff true .unit _).mp h

theorem Setting.take_kinds_recognize (s : Setting) :
    s.tokens.kinds.take s.recognize.2.position = s.tokens.slice 0 s.recognize.2.position ∧
      s.tokens.toList[s.recognize.2.position]? =
        some (s.tokens.tokenAt s.recognize.2.position) := by
  have le := (Run.sound (c := {}) s.run_recognize (.initial s)).1.position_le
  have less := s.tokens.firstEnd_lt_size
  exact ⟨TokenSequence.take_kinds (by omega), s.tokens.toList_getElem? (by omega)⟩

theorem Setting.verdict_eq_fatal_iff :
    s.verdict o c = .error (.fatal t cause) ↔ o = .failed t cause := by
  cases o with
  | finished matched => cases matched <;> simp [Setting.verdict]
  | failed token cause => simp [Setting.verdict]

/-- What stands before the token that a fatal error blames is viable, where `struct`
with a name is a type; if a certain token was expected, the blamed one is none, and
with an expected one in its place the beginning is viable as well. -/
theorem viable_of_parse_fatal (tokens : Array Token) (structTypes : Bool) (t : Token)
    (cause : Expectation)
    (h : (Parser.ofTokens tokens structTypes).parse.1 = .error (.fatal t cause)) :
    let ts := TokenSequence.ofArray tokens
    let i := (Parser.ofTokens tokens structTypes).parse.2.position
    ts.toList[i]? = some t ∧ Viable true (ts.kinds.take i) ∧
      ∀ m, cause = .token m → t.kind ≠ m.kind ∧ Viable true (ts.kinds.take i ++ [m.kind]) := by
  intro ts i
  let s := (Parser.ofTokens tokens structTypes).setting
  rw [Parser.verdict_parse, Setting.verdict_eq_fatal_iff] at h
  obtain ⟨same, mirrors⟩ := s.recognize_forgetful
  obtain ⟨⟨rfl, notWanted⟩, viable⟩ := Setting.viable_of_failed (s := s.forgetful) rfl (same ▸ h)
  have here : i = s.forgetful.recognize.2.position := mirrors.position_eq
  obtain ⟨taken, found⟩ := s.forgetful.take_kinds_recognize
  rw [← here] at taken found viable notWanted ⊢
  rw [← taken] at viable
  refine ⟨found, viable.of_append, ?_⟩
  intro m e
  subst e
  refine ⟨fun same => notWanted ?_, viable⟩
  rw [same]
  exact List.mem_singleton_self _

/-- The end is blamed where a variable's semicolon must stand. -/
theorem viable_of_parse_fatal_unfinished_variable :
    let parser := Parser.ofTokens #[⟨.keyword .kwInt, "int", 1⟩, ⟨.identifier, "x", 1⟩] false
    parser.parse.1 = .error (.fatal (.endAt 1) (.token .variablesEnd)) ∧
      Viable true [.keyword .kwInt, .identifier, .symbol .semicolon] := by
  intro parser
  have fails : parser.parse.1 = .error (.fatal (.endAt 1) (.token .variablesEnd)) := by cbv
  obtain ⟨found, -, expected⟩ := viable_of_parse_fatal _ _ _ _ fails
  have viable := (expected .variablesEnd rfl).2
  generalize (Parser.ofTokens _ false).parse.2.position = i at found viable
  rcases i with _ | _ | _ | i
  · cases found
  · cases found
  · exact ⟨fails, viable⟩
  · cases found

end AtomFrontEnd

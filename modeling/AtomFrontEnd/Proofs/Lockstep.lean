import AtomFrontEnd.Proofs.Reachable
import AtomFrontEnd.Proofs.Slice

/-!
Only the kinds of the tokens up to the first end matter.

A machine looks at nothing of a token but its kind, and at no token past the first end.
So where two lists have the same kinds so far, their machines go through the very same
states (`Setting.Alike.reaches`): not only the position but the farthest miss, the
moves back and all that is remembered are equal. They also stop in the same state, and
there alone do the tokens themselves come in, since an error names the one it was found
at. Each machine names its own, but at the same index (`Setting.Alike.corresponds`).
-/

namespace AtomFrontEnd

variable {s s' : Setting} {t u : State}

/-- The tokens have the same kinds up to the first end token, and are read alike. -/
structure Setting.Alike (s s' : Setting) : Prop where
  sentence_eq : s'.tokens.sentence = s.tokens.sentence
  structTypes_eq : s'.structTypes = s.structTypes
  recalling_eq : s'.recalling = s.recalling

/-- Both verdicts accept, or they find the same error at the same index, each at the token
that stands there in its own list. -/
inductive Verdict.Corresponds (first second : List Token) : Verdict → Verdict → Prop where
  | accepted : Corresponds first second (.ok ()) (.ok ())
  | fatal {i : Nat} {x y : Token} {cause : Expectation} :
    first[i]? = some x → second[i]? = some y →
    Corresponds first second (.error (.fatal x cause)) (.error (.fatal y cause))
  | stalled {i : Nat} {x y : Token} :
    first[i]? = some x → second[i]? = some y →
    Corresponds first second (.error (.stalled x)) (.error (.stalled y))

namespace Setting.Alike

theorem firstEnd_eq (same : s.Alike s') : s'.tokens.firstEnd = s.tokens.firstEnd := by
  have e := congrArg List.length same.sentence_eq
  rw [TokenSequence.length_sentence, TokenSequence.length_sentence] at e
  exact Nat.succ.inj e

theorem kindAt_eq (same : s.Alike s') {i : Nat} (le : i ≤ s.tokens.firstEnd) :
    s'.tokens.kindAt i = s.tokens.kindAt i := by
  have here := s.tokens.sentence_getElem? le
  rw [← same.sentence_eq, s'.tokens.sentence_getElem? (same.firstEnd_eq ▸ le)] at here
  exact Option.some.inj here

theorem lookup_eq (same : s.Alike s') (p : Production) (c : Cursor) :
    c.lookup s' p = c.lookup s p := by
  simp only [Cursor.lookup, same.recalling_eq]

theorem record_eq (same : s.Alike s') (a : Activation) (matched : Bool) (c : Cursor) :
    c.record s' a matched = c.record s a matched := by
  simp only [Cursor.record, same.recalling_eq]

/-- What one machine does in a state, the other does too. -/
theorem move (same : s.Alike s') (le : t.cursor.position ≤ s.tokens.firstEnd)
    (h : State.Moves s t u) : State.Moves s' t u := by
  cases h with
  | returned =>
    rw [← same.record_eq]
    exact .returned
  | taken here => exact .taken ((same.kindAt_eq le).trans here)
  | missed other => exact .missed fun here => other ((same.kindAt_eq le).symm.trans here)
  | recalled known => exact .recalled ((same.lookup_eq ..).trans known)
  | entered unknown =>
    rw [← same.structTypes_eq]
    exact .entered ((same.lookup_eq ..).trans unknown)
  | rewound => exact .rewound

theorem reaches (same : s.Alike s') (h : s.Reaches t) : s'.Reaches t := by
  induction h with
  | start =>
    rw [State.call, ← same.structTypes_eq]
    exact .start
  | next reached e ih =>
    have moves := same.move reached.sound.confined.position_le (State.step_eq_inl_iff.mp e)
    exact ih.next (State.step_eq_inl_iff.mpr moves)

/-- Where one machine stops, the other does, with a verdict that corresponds. -/
theorem exists_halts (same : s.Alike s') {answer : Outcome × Cursor} (confined : t.cursor.Confined s)
    (h : State.Halts s t answer) :
    ∃ outcome, State.Halts s' t (outcome, answer.2) ∧
      Verdict.Corresponds s.tokens.toList s'.tokens.toList (s.verdict answer.1 answer.2)
        (s'.verdict outcome answer.2) := by
  have own : ∀ {i}, i ≤ s.tokens.firstEnd → s.tokens.toList[i]? = some (s.tokens.tokenAt i) ∧
      s'.tokens.toList[i]? = some (s'.tokens.tokenAt i) := fun le =>
    ⟨s.tokens.toList_getElem?_of_le le, s'.tokens.toList_getElem?_of_le (same.firstEnd_eq ▸ le)⟩
  cases h with
  | @finished a matched c =>
    refine ⟨_, .finished, ?_⟩
    cases matched with
    | true => exact .accepted
    | false =>
      obtain ⟨here, there⟩ := own confined.stalledAt_le
      exact .stalled here there
  | failed =>
    obtain ⟨here, there⟩ := own confined.position_le
    exact ⟨_, .failed, .fatal here there⟩

theorem corresponds (same : s.Alike s') :
    Verdict.Corresponds s.tokens.toList s'.tokens.toList (s.verdict s.recognize.1 s.recognize.2)
        (s'.verdict s'.recognize.1 s'.recognize.2) ∧
      s'.recognize.2 = s.recognize.2 := by
  obtain ⟨t, reached, halts, last⟩ := s.exists_last
  obtain ⟨outcome, halts', corresponds⟩ := same.exists_halts reached.sound.confined halts
  rw [(same.reaches reached).recognize_eq halts']
  exact ⟨corresponds, rfl⟩

end Setting.Alike

/-- Of two lists of tokens, completed with an end token each, the kinds up to the first end
token decide alone how the parse goes. If they are the same, the verdicts correspond, and the
cursors are equal: where they come to rest, the farthest miss and all moves back. -/
theorem parse_corresponds (first second : Array Token) (structTypes : Bool)
    (same : (TokenSequence.ofArray second).sentence = (TokenSequence.ofArray first).sentence) :
    let p := (Parser.ofTokens first structTypes).parse
    let q := (Parser.ofTokens second structTypes).parse
    Verdict.Corresponds (TokenSequence.ofArray first).toList (TokenSequence.ofArray second).toList
        p.1 q.1 ∧
      q.2.cursor = p.2.cursor := by
  intro p q
  have alike : Setting.Alike (Parser.ofTokens first structTypes).setting
      (Parser.ofTokens second structTypes).setting := ⟨same, rfl, rfl⟩
  exact alike.corresponds

/-- A cast without its operand, and the same with other texts and lines and with more tokens
after the end: each parse gives up at its own end token, and the cursors are equal. -/
theorem parse_corresponds_unfinished_cast :
    let kinds : List TokenKind := [.keyword .kwVoid, .identifier, .symbol .leftParen,
      .symbol .rightParen, .symbol .leftBrace, .identifier, .symbol .assign, .symbol .leftParen,
      .keyword .kwInt]
    let first := (kinds.map fun kind => (⟨kind, "a", 1⟩ : Token)).toArray
    let second := (kinds.map fun kind => (⟨kind, "b", 2⟩ : Token)).toArray ++
      #[⟨.endOfInput, "c", 3⟩, ⟨.symbol .rightParen, "d", 4⟩]
    (TokenSequence.ofArray second).sentence = (TokenSequence.ofArray first).sentence ∧
      (Parser.ofTokens first false).parse.1 = .error (.fatal (.endAt 1) (.token .castClose)) ∧
      (Parser.ofTokens second false).parse.1 =
        .error (.fatal ⟨.endOfInput, "c", 3⟩ (.token .castClose)) ∧
      Verdict.Corresponds (TokenSequence.ofArray first).toList
        (TokenSequence.ofArray second).toList (Parser.ofTokens first false).parse.1
        (Parser.ofTokens second false).parse.1 ∧
      (Parser.ofTokens second false).parse.2.cursor = (Parser.ofTokens first false).parse.2.cursor := by
  intro kinds first second
  have same : (TokenSequence.ofArray second).sentence = (TokenSequence.ofArray first).sentence := by
    decide
  have fails : (Parser.ofTokens first false).parse.1 =
      .error (.fatal (.endAt 1) (.token .castClose)) := by cbv
  have fails' : (Parser.ofTokens second false).parse.1 =
      .error (.fatal ⟨.endOfInput, "c", 3⟩ (.token .castClose)) := by cbv
  exact ⟨same, fails, fails', parse_corresponds first second false same⟩

end AtomFrontEnd

import AtomFrontEnd.Proofs.Exactness
import AtomFrontEnd.Proofs.Soundness

/-!
The parser accepts the sentences of the grammar, and nothing else.

A unit that matches has seen the end (`Run.kindAt_end`), and so spans all that
stands before the first end token; what it spans is a run of declarations. The
other way round, where declarations stand up to the end the unit matches. Since
what is remembered makes no difference, this is so for the parser that remembers.
-/

namespace AtomFrontEnd

/-- Whether every match of the command ends where an end token was seen; `seen`
says that one was seen here. -/
def Command.seesEnd : Bool → Command → Bool
  | seen, finish matched => !matched || seen
  | _, fail _ => true
  | seen, token kind hit miss =>
    hit.seesEnd (decide (kind = .endOfInput)) && miss.seesEnd seen
  | _, call q hit miss => hit.seesEnd (decide (q = .unit)) && miss.seesEnd false
  | _, rewind next => next.seesEnd false

theorem seesEnd_rules_unit (structTypes : Bool) :
    (rules structTypes .unit).seesEnd false = true := rfl

variable {s : Setting} {a : Activation} {k : Command} {c d : Cursor} {o : Outcome}

theorem Run.kindAt_of_seesEnd (hs : s.recalling = false) (h : Run s a k c o d) {seen : Bool}
    (hk : k.seesEnd seen = true)
    (here : seen = true → s.tokens.kindAt c.position = .endOfInput)
    (matched : o = .finished true) : s.tokens.kindAt d.position = .endOfInput := by
  induction h generalizing seen with
  | finish =>
    obtain rfl := Outcome.finished.inj matched
    exact here hk
  | fail => cases matched
  | @taken a kind hit miss c o d stands _ ih =>
    simp only [Command.seesEnd, Bool.and_eq_true] at hk
    refine ih hk.1 (fun isEnd => ?_) matched
    obtain rfl := of_decide_eq_true isEnd
    exact stands
  | missed _ _ ih =>
    simp only [Command.seesEnd, Bool.and_eq_true] at hk
    exact ih hk.2 here matched
  | rewound _ ih => exact ih hk (fun e => by cases e) matched
  | recalled known _ _ => exact absurd known (by simp [Cursor.lookup_of_forgetful hs])
  | @entered a p hit miss c answer c' o d _ _ _ ihBody ihRest =>
    simp only [Command.seesEnd, Bool.and_eq_true] at hk
    cases answer with
    | true =>
      refine ihRest hk.1 (fun isUnit => ?_) matched
      obtain rfl := of_decide_eq_true isUnit
      rw [Cursor.position_record]
      exact ihBody (seesEnd_rules_unit _) (fun e => by cases e) rfl
    | false => exact ihRest hk.2 (fun e => by cases e) matched
  | aborted => cases matched

theorem Run.kindAt_end (hs : s.recalling = false)
    (h : Run s a (rules s.structTypes .unit) c (.finished true) d) :
    s.tokens.kindAt d.position = .endOfInput :=
  h.kindAt_of_seesEnd hs (seesEnd_rules_unit _) (fun e => by cases e) rfl

theorem derives_unit_iff {b : Bool} {w : List TokenKind} :
    Derives b (.phrase .unit) w ↔
      ∃ v, Derives b (.many .declaration) v ∧ w = v ++ [.endOfInput] := by
  rw [← spells_eq_iff, spells_phrase]
  simp only [grammar, spells_next, spells_token]
  exact exists_congr fun v => and_congr_right fun _ => eq_comm

/-- Where a unit has matched the cursor stands at the first end. -/
theorem Setting.position_of_matched (hs : s.recalling = false)
    (matched : s.recognize.1 = .finished true) : s.recognize.2.position = s.tokens.firstEnd := by
  have run := s.run_recognize
  rw [matched] at run
  have sound := (Run.sound (c := {}) run (.initial s)).1
  have isEnd := Run.kindAt_end hs run
  refine Nat.le_antisymm sound.position_le (Nat.le_of_not_lt fun less => ?_)
  exact s.tokens.kindAt_ne_end less isEnd

/-- Without a memory the unit matches if declarations stand before the first end. -/
theorem Setting.recognize_forgetful_iff (hs : s.recalling = false) :
    s.recognize.1 = .finished true ↔
      Derives s.structTypes (.phrase .unit) s.tokens.sentence := by
  have run := s.run_recognize
  rw [derives_unit_iff, TokenSequence.sentence_eq]
  constructor
  · intro matched
    rw [matched] at run
    have spans := Run.derives (c := {}) hs run
    rw [s.position_of_matched hs matched] at spans
    exact ⟨_, spans, rfl⟩
  · intro h
    obtain ⟨v, h, e⟩ := h
    obtain ⟨rfl, -⟩ := List.append_inj' e rfl
    have shown := s.tokens.shows_slice 0 s.tokens.firstEnd
    have spans := yields_of_derives (p := .unit) hs h shown (by
      rw [TokenSequence.length_slice, Nat.sub_zero, Nat.zero_add]
      exact s.tokens.kindAt_firstEnd)
    exact (spans {} rfl _ _ run).1

theorem Setting.verdict_eq_ok_iff : s.verdict o c = .ok () ↔ o = .finished true := by
  cases o with
  | finished matched => cases matched <;> simp [Setting.verdict]
  | failed token cause => simp [Setting.verdict]

/-- A parser accepts the sentences of its grammar. -/
theorem Parser.parse_eq_ok_iff (p : Parser) :
    p.parse.1 = .ok () ↔ Derives p.setting.structTypes (.phrase .unit) p.setting.tokens.sentence := by
  rw [Parser.verdict_parse, Setting.verdict_eq_ok_iff, (Setting.recognize_forgetful _).1]
  exact Setting.recognize_forgetful_iff rfl

/-- The tokens are judged to be a unit if and only if their kinds, up to the first
end token, are a sentence of the grammar. -/
theorem parse_ok_iff_derives (tokens : Array Token) (structTypes : Bool) :
    (Parser.ofTokens tokens structTypes).parse.1 = .ok () ↔
      Derives structTypes (.phrase .unit) (TokenSequence.ofArray tokens).sentence := by
  rw [Parser.verdict_parse, Setting.verdict_eq_ok_iff, (Setting.recognize_forgetful _).1]
  exact Setting.recognize_forgetful_iff rfl

end AtomFrontEnd

import AtomFrontEnd.Proofs.Reachable

/-!
The cursor stays among the tokens.

Each parse begins afresh, so it does not matter how often a parser has parsed its tokens
before, and all that holds of the states of one parse holds of those of the next
(`Parser.Has.confined`). Whatever the tokens are, the cursor never passes the first end
token, and no position is asked for at which the completed list has none
(`parse_confined`).
-/

namespace AtomFrontEnd

/-- The parser after it has parsed its tokens so many times. -/
def Parser.parsed (p : Parser) : Nat → Parser
  | 0 => p
  | n + 1 => (p.parsed n).parse.2

/-- The cursors that a parser has, where it has come to rest and in its next parse. -/
inductive Parser.Has (p : Parser) : Cursor → Prop where
  | atRest : p.Has p.cursor
  | atWork {t : State} : p.setting.Reaches t → p.Has t.cursor

theorem Parser.setting_parsed (p : Parser) (n : Nat) : (p.parsed n).setting = p.setting := by
  induction n with
  | zero => rfl
  | succ n ih => exact ih

theorem Parser.Has.confined {p : Parser} {n : Nat} {c : Cursor} (h : (p.parsed n).Has c)
    (initial : p.cursor.Confined p.setting) : c.Confined p.setting := by
  rw [← p.setting_parsed n]
  cases h with
  | atWork reached => exact reached.sound.confined
  | atRest =>
    cases n with
    | zero => exact initial
    | succ n => exact (p.parsed n).setting.confined_recognize

/-- However often a list of tokens has been parsed, wherever the cursor has come to rest
and in every state of the next parse: neither the position nor the farthest miss is past
the first end token, and what is known of a match ends after its start and no later than
there. So the position, and the one that a stalled unit is reported at, are those of tokens
of the completed list. -/
theorem parse_confined (tokens : Array Token) (structTypes : Bool) (n : Nat) (c : Cursor)
    (reached : ((Parser.ofTokens tokens structTypes).parsed n).Has c) :
    let completed := TokenSequence.ofArray tokens
    (c.position ≤ completed.firstEnd ∧ c.farthestMiss ≤ completed.firstEnd ∧
      ∀ start stop, c.known[start]? = some (some stop) →
        start < stop ∧ stop ≤ completed.firstEnd) ∧
    completed.toList[c.position]? = some (completed.tokenAt c.position) ∧
    completed.toList[c.stalledAt]? = some (completed.tokenAt c.stalledAt) := by
  intro completed
  have confined := reached.confined (.initial _)
  refine ⟨⟨confined.position_le, confined.farthestMiss_le, fun _ _ => confined.known_lt⟩, ?_, ?_⟩
  · exact completed.toList_getElem?_of_le confined.position_le
  · exact completed.toList_getElem?_of_le confined.stalledAt_le

/-- Tokens with an end in the middle, parsed a second time: the name before the end is
remembered as an operand that stops there, and there the cursor stays. -/
theorem parse_confined_second_time :
    let tokens : Array Token := #[⟨.keyword .kwVoid, "void", 1⟩, ⟨.identifier, "f", 1⟩,
      ⟨.symbol .leftParen, "(", 1⟩, ⟨.symbol .rightParen, ")", 1⟩, ⟨.symbol .leftBrace, "\x7b", 1⟩,
      ⟨.identifier, "x", 2⟩, .endAt 2, ⟨.symbol .semicolon, ";", 2⟩]
    ∃ c, ((Parser.ofTokens tokens false).parsed 1).Has c ∧ c.position = 6 ∧
      c.known[5]? = some (some 6) ∧ 6 ≤ (TokenSequence.ofArray tokens).firstEnd ∧
      (TokenSequence.ofArray tokens).toList[c.position]? = some (.endAt 2) := by
  intro tokens
  have rest : (Parser.ofTokens tokens false).setting.recognize =
      (.failed (.endAt 2) (.token .expressionEnd),
        { position := 6, farthestMiss := 6, known := .insert ∅ 5 (some 6),
          backtracks := [⟨6, 5⟩] }) := by cbv
  obtain ⟨t, reached, -, last⟩ := ((Parser.ofTokens tokens false).parsed 1).setting.exists_last
  rw [Parser.setting_parsed, rest] at last
  have has : ((Parser.ofTokens tokens false).parsed 1).Has t.cursor := .atWork reached
  have position : t.cursor.position = 6 := by rw [last]
  have known : t.cursor.known[5]? = some (some 6) := by
    rw [last]
    exact Std.TreeMap.getElem?_insert_self
  obtain ⟨⟨-, -, bounds⟩, here, -⟩ := parse_confined tokens false 1 t.cursor has
  refine ⟨t.cursor, has, position, known, (bounds 5 6 known).2, ?_⟩
  rw [here, position]
  rfl

end AtomFrontEnd

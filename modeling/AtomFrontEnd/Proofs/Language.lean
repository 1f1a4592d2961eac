import AtomFrontEnd.Grammar
import AtomFrontEnd.Recognizer.Rules

/-!
What a production may span, read from its body and read from the grammar.

A body can be read without its order of preference: a token may be taken where
it stands, a production may be called where it matches, and whatever comes after
a miss may be taken up instead. `Command.Admits` is that reading, and it is the
grammar's (`admits_rules_iff`): a production's body admits the sequences that
its form describes. What a recognizer adds, that of all these ways it follows a
single one and loses nothing by it, is another matter.
-/

namespace AtomFrontEnd

namespace Level

open Form

/-- What the operators of the level join. -/
def operandPhrase : Level → Phrase
  | disjunction => .binary .conjunction
  | conjunction => .binary .equality
  | equality => .binary .relation
  | relation => .binary .sum
  | sum => .binary .product
  | product => .cast

def operatorForm : Level → Form
  | disjunction => symbol .orOr
  | conjunction => symbol .andAnd
  | equality => either (symbol .equal) (symbol .notEqual)
  | relation => choice (symbol .less) [symbol .lessEqual, symbol .greater, symbol .greaterEqual]
  | sum => either (symbol .plus) (symbol .minus)
  | product => either (symbol .star) (symbol .slash)

end Level

open Form in
/-- What a production spans when it matches; of a unit, its declarations alone. -/
def Production.form : Production → Form
  | unit => many (choice (phrase .structDef) [phrase .funcDef, phrase .varDef])
  | structDef => phrase .structDef
  | fields => sequence [many (phrase .varDef), symbol .rightBrace, symbol .semicolon]
  | varDef => phrase .varDef
  | moreVars =>
    next (optional (phrase .arrayMark)) <|
      next (many (next (symbol .comma) declarator)) (symbol .semicolon)
  | funcDef => phrase .funcDef
  | moreParams =>
    sequence [many (next (symbol .comma) (phrase .param)), symbol .rightParen, phrase .block]
  | param => phrase .param
  | typeSpec => phrase .typeSpec
  | arrayMark => phrase .arrayMark
  | statement => phrase .statement
  | block => phrase .block
  | blockItems => next (many (either (phrase .varDef) (phrase .statement))) (symbol .rightBrace)
  | expression => phrase .expression
  | binary l => phrase (.binary l)
  | moreOperands l => many (next l.operatorForm (phrase l.operandPhrase))
  | cast => phrase .cast
  | unary => phrase .unary
  | suffixed => phrase .suffixed
  | suffixes =>
    many <| either (sequence [symbol .leftBracket, phrase .expression, symbol .rightBracket])
      (next (symbol .dot) (token .identifier))
  | primary => phrase .primary
  | moreArguments =>
    next (many (next (symbol .comma) (phrase .expression))) (symbol .rightParen)

/-! ## Sequences of a form that have a property -/

/-- The form describes a sequence with the property. -/
def Form.Spells (structTypes : Bool) (f : Form) (P : List TokenKind → Prop) : Prop :=
  ∃ w, Derives structTypes f w ∧ P w

section

variable {b : Bool} {f g : Form} {P Q : List TokenKind → Prop} {w : List TokenKind}

theorem spells_eq_iff : (f.Spells b fun v => v = w) ↔ Derives b f w :=
  ⟨fun ⟨_, h, e⟩ => e ▸ h, fun h => ⟨w, h, rfl⟩⟩

theorem Form.Spells.imp (h : f.Spells b P) (imp : ∀ w, P w → Q w) : f.Spells b Q := by
  obtain ⟨w, hw, hP⟩ := h
  exact ⟨w, hw, imp w hP⟩

@[simp] theorem spells_false : (f.Spells b fun _ => False) ↔ False :=
  ⟨fun ⟨_, _, h⟩ => h, False.elim⟩

@[simp] theorem spells_empty : Form.empty.Spells b P ↔ P [] := by
  constructor
  · intro h
    obtain ⟨_, h, hP⟩ := h
    cases h
    exact hP
  · exact fun hP => ⟨_, .empty, hP⟩

@[simp] theorem spells_token {kind : TokenKind} : (Form.token kind).Spells b P ↔ P [kind] := by
  constructor
  · intro h
    obtain ⟨_, h, hP⟩ := h
    cases h
    exact hP
  · exact fun hP => ⟨_, .token kind, hP⟩

theorem spells_phrase {p : Phrase} : (Form.phrase p).Spells b P ↔ (grammar b p).Spells b P := by
  constructor
  · intro h
    obtain ⟨_, h, hP⟩ := h
    cases h with
    | phrase h => exact ⟨_, h, hP⟩
  · intro h
    obtain ⟨_, h, hP⟩ := h
    exact ⟨_, .phrase h, hP⟩

@[simp] theorem spells_next :
    (Form.next f g).Spells b P ↔ f.Spells b fun u => g.Spells b fun v => P (u ++ v) := by
  constructor
  · intro h
    obtain ⟨_, h, hP⟩ := h
    cases h with
    | next hu hv => exact ⟨_, hu, _, hv, hP⟩
  · intro h
    obtain ⟨u, hu, v, hv, hP⟩ := h
    exact ⟨_, .next hu hv, hP⟩

@[simp] theorem spells_either : (Form.either f g).Spells b P ↔ f.Spells b P ∨ g.Spells b P := by
  constructor
  · intro h
    obtain ⟨_, h, hP⟩ := h
    cases h with
    | first h => exact .inl ⟨_, h, hP⟩
    | second h => exact .inr ⟨_, h, hP⟩
  · intro h
    rcases h with ⟨_, h, hP⟩ | ⟨_, h, hP⟩
    · exact ⟨_, .first h, hP⟩
    · exact ⟨_, .second h, hP⟩

theorem spells_many :
    (Form.many f).Spells b P ↔
      (f.Spells b fun u => (Form.many f).Spells b fun v => P (u ++ v)) ∨ P [] := by
  constructor
  · intro h
    obtain ⟨_, h, hP⟩ := h
    cases h with
    | none => exact .inr hP
    | more hu hv => exact .inl ⟨_, hu, _, hv, hP⟩
  · intro h
    rcases h with ⟨_, hu, _, hv, hP⟩ | hP
    · exact ⟨_, .more hu hv, hP⟩
    · exact ⟨_, .none, hP⟩

theorem derives_parenthesized_iff :
    Derives b (.parenthesized f) w ↔
      ∃ v, Derives b f v ∧ w = .symbol .leftParen :: (v ++ [.symbol .rightParen]) := by
  rw [← spells_eq_iff]
  simp only [Form.parenthesized, Form.sequence, spells_next, spells_token, List.cons_append,
    List.nil_append]
  exact exists_congr fun v => and_congr_right fun _ => eq_comm

end

/-! ## Bodies read without preference -/

/-- With `u` behind it, the command may end with a match of the whole of `w`. The
end token is looked at and never behind. -/
def Command.Admits (structTypes : Bool) :
    Command → List TokenKind → List TokenKind → Prop
  | finish matched, u, w => matched = true ∧ u = w
  | fail _, _, _ => False
  | token kind hit miss, u, w =>
    hit.Admits structTypes (if kind = .endOfInput then u else u ++ [kind]) w ∨
      miss.Admits structTypes u w
  | call p hit miss, u, w =>
    (p.form.Spells structTypes fun v => hit.Admits structTypes (u ++ v) w) ∨
      miss.Admits structTypes u w
  | rewind next, _, w => next.Admits structTypes [] w

section

attribute [local simp] Command.Admits Command.become Command.accept Command.refuse Command.reject
  Command.need Command.needPart Command.oneOf Command.optional MissingToken.kind
  MissingPart.production Form.sequence Form.keyword Form.symbol Form.optional Form.separated
  Form.declarator Form.choice Form.parenthesized grammar rules Production.form
  Level.operandPhrase Level.operand Level.operatorForm Level.operators or_assoc

private theorem admits_moreVars_tail (b : Bool) (u w : List TokenKind) :
    (Command.token (.symbol .comma) (.need .nextVariable <| .become .moreVars)
      (.need .variablesEnd .accept)).Admits b u w ↔
      (Form.next (.many (.next (.symbol .comma) .declarator)) (.symbol .semicolon)).Spells b
        fun v => u ++ v = w := by
  rw [spells_next, spells_many]
  simp

/-- A body admits what the form of its production describes. -/
theorem admits_rules_iff (b : Bool) (p : Production) (w : List TokenKind) :
    (rules b p).Admits b [] w ↔ Derives b p.form w := by
  rw [← spells_eq_iff]
  cases p with
  | unit | suffixes =>
    rw [Production.form, spells_many]
    simp
  | fields | moreParams | blockItems | moreArguments =>
    simp
    rw [spells_many]
    simp
  | moreVars =>
    rw [Production.form, spells_next, Form.optional, spells_either, spells_empty]
    exact or_congr (exists_congr fun v => and_congr_right fun _ => admits_moreVars_tail b _ w)
      (admits_moreVars_tail b [] w)
  | moreOperands l =>
    rw [Production.form, spells_many]
    cases l <;> simp
  | binary l =>
    rw [Production.form, spells_phrase]
    cases l <;> simp
  | typeSpec =>
    rw [Production.form, spells_phrase]
    cases b <;> simp
  | expression =>
    -- a disjunction may be read after a `unary` was, in vain, or at once
    rw [Production.form, spells_phrase]
    simp
    constructor
    · intro h
      rcases h with ⟨v, hv, h | h⟩ | h
      · exact .inl ⟨v, hv, h⟩
      · exact .inr h
      · exact .inr h
    · intro h
      rcases h with h | h
      · exact .inl (h.imp fun _ => .inl)
      · exact .inr h
  | structDef | varDef | funcDef | param | arrayMark | statement | block | cast | unary
  | suffixed | primary =>
    rw [Production.form, spells_phrase]
    simp

end

end AtomFrontEnd

import AtomFrontEnd.Proofs.Language

/-!
The kinds with which a form can open.

`Phrase.openers` is a table with one row for each phrase, and `Form.openers`
reads off it what any form can open with. The table agrees with the grammar
(`openers_grammar`), so a sequence that a form describes opens with one of the
form's openers (`Derives.mem_openers`). No phrase is empty.
-/

namespace AtomFrontEnd

namespace TokenKind

/-- Kinds with which a primary expression opens. -/
def operandOpeners : List TokenKind :=
  [identifier, literal .integer, literal .real, literal .character, literal .string,
    symbol .leftParen]

def expressionOpeners : List TokenKind := [symbol .minus, symbol .bang] ++ operandOpeners

def typeOpeners (structTypes : Bool) : List TokenKind :=
  [keyword .kwInt, keyword .kwDouble, keyword .kwChar]
    ++ if structTypes then [keyword .kwStruct] else []

end TokenKind

open TokenKind in
def Phrase.openers (structTypes : Bool) : Phrase → List TokenKind
  | unit => [keyword .kwStruct, keyword .kwVoid, endOfInput] ++ typeOpeners structTypes
  | structDef => [keyword .kwStruct]
  | funcDef => keyword .kwVoid :: typeOpeners structTypes
  | varDef | param | typeSpec => typeOpeners structTypes
  | arrayMark => [symbol .leftBracket]
  | block => [symbol .leftBrace]
  | statement =>
    [symbol .leftBrace, keyword .kwIf, keyword .kwWhile, keyword .kwFor, keyword .kwBreak,
      keyword .kwReturn, symbol .semicolon] ++ expressionOpeners
  | expression | binary _ | cast | unary => expressionOpeners
  | suffixed | primary => operandOpeners

namespace Form

/-- Whether the form describes the empty sequence. -/
def nullable : Form → Bool
  | empty => true
  | token _ => false
  | phrase _ => false
  | next f g => f.nullable && g.nullable
  | either f g => f.nullable || g.nullable
  | many _ => true

/-- Kinds with which a sequence of the form opens. -/
def openers (structTypes : Bool) : Form → List TokenKind
  | empty => []
  | token kind => [kind]
  | phrase p => p.openers structTypes
  | next f g => f.openers structTypes ++ if f.nullable then g.openers structTypes else []
  | either f g => f.openers structTypes ++ g.openers structTypes
  | many f => f.openers structTypes

end Form

theorem nullable_grammar (b : Bool) (p : Phrase) : (grammar b p).nullable = false := by
  cases b <;> cases p with
  | binary l => cases l <;> rfl
  | _ => rfl

/-- The table has in each row what the grammar asks for. -/
theorem openers_grammar (b : Bool) (p : Phrase) : (grammar b p).openers b ⊆ p.openers b := by
  cases b <;> cases p with
  | binary l => cases l <;> decide
  | _ => decide

variable {b : Bool} {f : Form} {w : List TokenKind}

theorem Derives.nullable_of_nil (h : Derives b f w) (e : w = []) : f.nullable = true := by
  induction h with
  | empty => rfl
  | token => cases e
  | @phrase p _ _ ih => exact absurd (ih e) (by simp [nullable_grammar])
  | next _ _ ih₁ ih₂ =>
    obtain ⟨e₁, e₂⟩ := List.append_eq_nil_iff.mp e
    simp [Form.nullable, ih₁ e₁, ih₂ e₂]
  | first _ ih => simp [Form.nullable, ih e]
  | second _ ih => simp [Form.nullable, ih e]
  | none => rfl
  | more => rfl

theorem Derives.mem_openers (h : Derives b f w) {kind : TokenKind} {rest : List TokenKind}
    (e : w = kind :: rest) : kind ∈ f.openers b := by
  induction h generalizing rest with
  | empty => cases e
  | token k =>
    obtain rfl := (List.cons.inj e).1
    exact List.mem_singleton_self _
  | phrase _ ih => exact openers_grammar _ _ (ih e)
  | @next f g u v hu _ ih₁ ih₂ =>
    cases u with
    | nil =>
      have nullable := hu.nullable_of_nil rfl
      simp only [Form.openers, nullable, if_true]
      exact List.mem_append_right _ (ih₂ e)
    | cons k u =>
      obtain ⟨rfl, _⟩ := List.cons.inj e
      exact List.mem_append_left _ (ih₁ rfl)
  | first _ ih => exact List.mem_append_left _ (ih e)
  | second _ ih => exact List.mem_append_right _ (ih e)
  | none => cases e
  | @more f u v _ _ ih₁ ih₂ =>
    cases u with
    | nil => exact ih₂ e
    | cons k u =>
      obtain ⟨rfl, _⟩ := List.cons.inj e
      exact ih₁ rfl

theorem Derives.exists_opener (h : Derives b f w) (hf : f.nullable = false) :
    ∃ kind rest, w = kind :: rest ∧ kind ∈ f.openers b := by
  cases w with
  | nil => exact absurd (h.nullable_of_nil rfl) (by simp [hf])
  | cons kind rest => exact ⟨kind, rest, rfl, h.mem_openers rfl⟩

end AtomFrontEnd

import AtomFrontEnd.Token.Kind

/-!
Tokens: a kind, a text and the line on which the token begins.

The text of a literal in quotes is what stands between the quotes; every other
token's text is its own spelling. The end of the input is a token too, with a
text of its own. `Token.render` is the external form that reports print; it
does not escape the text.
-/

namespace AtomFrontEnd

/-- A classified stretch of source text and the line on which it begins. -/
structure Token where
  kind : TokenKind
  text : String
  line : Nat
  deriving DecidableEq, Repr

namespace Token

/-- The token that marks the end of the input, reached on the given line. -/
def endAt (line : Nat) : Token := ⟨.endOfInput, "EOF", line⟩

@[simp] theorem kind_endAt (line : Nat) : (endAt line).kind = .endOfInput := rfl

@[simp] theorem line_endAt (line : Nat) : (endAt line).line = line := rfl

/-- The external form: kind, text in quotes, line. The text is not escaped. -/
def render (t : Token) : String :=
  "Token(" ++ t.kind.name ++ ", \"" ++ t.text ++ "\", Line: " ++ Nat.repr t.line ++ ")"

end Token

end AtomFrontEnd

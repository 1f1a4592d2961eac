import AtomFrontEnd.Recognizer.Machine

/-!
Verdicts: whether tokens are a unit of AtomC, and why not.

If they are not, either something has begun and cannot go on as it must (a fatal
error, at the token that stands in its place), or no declaration begins where one
is wanted (the unit stalls). A stalled unit is reported at the farthest token that
was looked at in vain.
-/

namespace AtomFrontEnd

/-- Why the tokens are not a unit. -/
inductive SyntaxError where
  /-- What must follow does not; this token stands there instead. -/
  | fatal (token : Token) (cause : Expectation)
  /-- No declaration can be completed past this token. -/
  | stalled (token : Token)
  deriving DecidableEq, Repr

namespace SyntaxError

def token : SyntaxError → Token
  | fatal t _ => t
  | stalled t => t

def line (e : SyntaxError) : Nat := e.token.line

def message : SyntaxError → String
  | fatal t cause => "Syntax error at token: " ++ Nat.repr t.line ++ " " ++ cause.message
  | stalled t => "Syntax error at token: " ++ t.render

end SyntaxError

/-- Tokens are a unit, or there is an error. -/
abbrev Verdict := Except SyntaxError Unit

/-- The position that a stalled unit is reported at. -/
def Cursor.stalledAt (c : Cursor) : Nat := max c.farthestMiss c.position

/-- The verdict on the tokens, given how the unit came out and the last cursor. -/
def Setting.verdict (s : Setting) (o : Outcome) (c : Cursor) : Verdict :=
  match o with
  | .finished true => .ok ()
  | .finished false => .error (.stalled (s.tokens.tokenAt c.stalledAt))
  | .failed token cause => .error (.fatal token cause)

end AtomFrontEnd

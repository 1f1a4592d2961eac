import AtomFrontEnd.Verdict

/-!
The parser: tokens, a switch and a cursor.

`Parser.parse` judges the tokens from the first one. Afterwards the cursor stands
where the last production left it; each parse begins afresh.
-/

namespace AtomFrontEnd

/-- Tokens to be judged, and where the last parse has left the cursor. -/
structure Parser where
  setting : Setting
  cursor : Cursor := {}

namespace Parser

/-- A parser for a list of tokens, which is completed with an end token if it
does not end with one. -/
def ofTokens (tokens : Array Token) (structTypes : Bool := false) : Parser :=
  { setting := { tokens := .ofArray tokens, structTypes } }

/-- Whether the tokens are a unit, and the parser with the cursor where it came
to rest. The cursor of an earlier parse plays no part. -/
def parse (p : Parser) : Verdict × Parser :=
  let (outcome, cursor) := p.setting.recognize
  (p.setting.verdict outcome cursor, { p with cursor })

theorem verdict_parse (p : Parser) :
    p.parse.1 = p.setting.verdict p.setting.recognize.1 p.setting.recognize.2 := rfl

def position (p : Parser) : Nat := p.cursor.position

def current (p : Parser) : Token := p.setting.tokens.tokenAt p.position

end Parser

end AtomFrontEnd

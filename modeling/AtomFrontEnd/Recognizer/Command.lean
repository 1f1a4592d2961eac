import AtomFrontEnd.Recognizer.Expectation

/-!
Commands: the little language in which the productions of AtomC are written.

A production's body is a command. A command looks at one token or calls one
production and goes on in one of two ways, by whether that matched; in the end
it finishes, matched or not, or fails for good. A production that gives up
after taking tokens rewinds the cursor to where it began, so that another can
be tried at the same place.
-/

namespace AtomFrontEnd

/-- What a command can call: the productions of AtomC. -/
inductive Production where
  /-- A whole source text: declarations up to the end of the input. -/
  | unit
  | structDef
  /-- The fields of a structure, its closing brace and semicolon. -/
  | fields
  | varDef
  /-- What follows a variable's name. -/
  | moreVars
  | funcDef
  /-- What follows a parameter. -/
  | moreParams
  | param
  | typeSpec
  /-- The empty brackets that make an array of a variable. -/
  | arrayMark
  | statement
  | block
  /-- What stands in a block, and its closing brace. -/
  | blockItems
  | expression
  | binary (level : Level)
  /-- Operators of one level with their right operands. -/
  | moreOperands (level : Level)
  | cast
  | unary
  /-- A primary expression with its indexes and fields. -/
  | suffixed
  | suffixes
  | primary
  /-- What follows an argument of a call. -/
  | moreArguments
  deriving DecidableEq, Repr

/-- A step of a production, and what comes after it. -/
inductive Command where
  /-- The production is over; it matched or it does not apply here. -/
  | finish (matched : Bool)
  /-- The unit cannot be completed: the expectation is not met here. -/
  | fail (cause : Expectation)
  /-- Take a token of the given kind, if one stands here. -/
  | token (kind : TokenKind) (hit miss : Command)
  /-- Try the production here. -/
  | call (production : Production) (hit miss : Command)
  /-- Go back to where the production began. -/
  | rewind (next : Command)
  deriving Repr

namespace Command

/-- The production matches. -/
def accept : Command := finish true

/-- The production does not apply, and the cursor stays. -/
def refuse : Command := finish false

/-- The production does not apply, and the cursor goes back to its start. -/
def reject : Command := rewind refuse

/-- The rest of the production is another production. -/
def become (p : Production) : Command := call p accept refuse

def optional (p : Production) (next : Command) : Command := call p next next

def oneOf (kinds : List TokenKind) (hit miss : Command) : Command :=
  kinds.foldr (fun kind other => token kind hit other) miss

/-- The token that the unit must go on with here. -/
def need (missing : MissingToken) (next : Command) : Command :=
  token missing.kind next (fail (.token missing))

end Command

/-- The production that the expected part belongs to. -/
def MissingPart.production : MissingPart → Production
  | nextParam => .param
  | functionBody => .block
  | ifCondition => .expression
  | ifBranch => .statement
  | elseBranch => .statement
  | whileCondition => .expression
  | whileBody => .statement
  | forBody => .statement
  | assignedValue => .expression
  | rightOperand .disjunction => .binary .conjunction
  | rightOperand .conjunction => .binary .equality
  | rightOperand .equality => .binary .relation
  | rightOperand .relation => .binary .sum
  | rightOperand .sum => .binary .product
  | rightOperand .product => .cast
  | castOperand => .cast
  | signedOperand => .unary
  | index => .expression
  | nextArgument => .expression

/-- The part that the unit must go on with here. -/
def Command.needPart (missing : MissingPart) (next : Command) : Command :=
  call missing.production next (fail (.part missing))

end AtomFrontEnd

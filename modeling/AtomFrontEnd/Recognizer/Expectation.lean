import AtomFrontEnd.Grammar

/-!
Expectations: what a unit of AtomC must go on with once something has begun.

Some constructs commit: after `if` there must be a parenthesis, after an
operator an operand. Each place where a unit can break such a promise is one
expectation, of a token or of a whole part, and `Expectation.message` words it.
-/

namespace AtomFrontEnd

/-- The places where one certain token must follow. -/
inductive MissingToken where
  | structName | fieldsClose | structEnd
  | nextVariable | variablesEnd
  | paramsClose | arrayClose
  | ifOpen | ifClose
  | whileOpen | whileClose
  | forOpen | forFirst | forSecond | forClose
  | breakEnd | returnEnd | expressionEnd | blockClose
  | castClose | indexClose | fieldName | argumentsClose | groupClose
  deriving DecidableEq, Repr

/-- The places where a part of several tokens must follow. -/
inductive MissingPart where
  | nextParam | functionBody
  | ifCondition | ifBranch | elseBranch
  | whileCondition | whileBody | forBody
  | assignedValue
  | rightOperand (level : Level)
  | castOperand | signedOperand
  | index | nextArgument
  deriving DecidableEq, Repr

/-- What must follow and does not. -/
inductive Expectation where
  | token (missing : MissingToken)
  | part (missing : MissingPart)
  deriving DecidableEq, Repr

namespace MissingToken

/-- The kind of the token that must follow. -/
def kind : MissingToken → TokenKind
  | structName => .identifier
  | fieldsClose => .symbol .rightBrace
  | structEnd => .symbol .semicolon
  | nextVariable => .identifier
  | variablesEnd => .symbol .semicolon
  | paramsClose => .symbol .rightParen
  | arrayClose => .symbol .rightBracket
  | ifOpen => .symbol .leftParen
  | ifClose => .symbol .rightParen
  | whileOpen => .symbol .leftParen
  | whileClose => .symbol .rightParen
  | forOpen => .symbol .leftParen
  | forFirst => .symbol .semicolon
  | forSecond => .symbol .semicolon
  | forClose => .symbol .rightParen
  | breakEnd => .symbol .semicolon
  | returnEnd => .symbol .semicolon
  | expressionEnd => .symbol .semicolon
  | blockClose => .symbol .rightBrace
  | castClose => .symbol .rightParen
  | indexClose => .symbol .rightBracket
  | fieldName => .identifier
  | argumentsClose => .symbol .rightParen
  | groupClose => .symbol .rightParen

def message : MissingToken → String
  | structName => "missing ID after 'struct'"
  | fieldsClose => "missing '\x7d' in struct declaration"
  | structEnd => "missing ';' after struct declaration"
  | nextVariable => "missing ID after ',' in variable list"
  | variablesEnd => "missing ';' after variable declaration"
  | paramsClose => "missing ')' in function declaration"
  | arrayClose => "missing ']' in array declaration"
  | ifOpen => "missing '(' after if"
  | ifClose => "missing ')' after if condition"
  | whileOpen => "missing '(' after while"
  | whileClose => "missing ')' after while condition"
  | forOpen => "missing '(' after for"
  | forFirst => "missing ';' after first for expression"
  | forSecond => "missing ';' after second for expression"
  | forClose => "missing ')' after for expressions"
  | breakEnd => "missing ';' after break"
  | returnEnd => "missing ';' after return"
  | expressionEnd => "missing ';' after expression"
  | blockClose => "missing '\x7d' or syntax error in stmCompound"
  | castClose => "missing ')' after cast"
  | indexClose => "missing ']' in array access"
  | fieldName => "missing field name after '.'"
  | argumentsClose => "missing ')' after function call arguments"
  | groupClose => "missing ')' after expression"

theorem kind_ne_endOfInput (m : MissingToken) : m.kind ≠ .endOfInput := by
  cases m <;> decide

end MissingToken

namespace MissingPart

def message : MissingPart → String
  | nextParam => "invalid funcArg after ','"
  | functionBody => "invalid function body"
  | ifCondition => "invalid expression inside if"
  | ifBranch => "missing statement after if"
  | elseBranch => "missing statement after else"
  | whileCondition => "invalid expression inside while"
  | whileBody => "missing statement after while"
  | forBody => "missing statement after for"
  | assignedValue => "invalid assignment"
  | rightOperand .disjunction => "invalid expression after ||"
  | rightOperand .conjunction => "invalid expression after &&"
  | rightOperand .equality => "invalid expression after == or !="
  | rightOperand .relation => "invalid expression after relational operator"
  | rightOperand .sum => "invalid expression after '+' or '-'"
  | rightOperand .product => "invalid expression after '*' or '/'"
  | castOperand => "invalid expression after cast"
  | signedOperand => "invalid expression after unary '-' or '!'"
  | index => "invalid index expression in array access"
  | nextArgument => "invalid expression after ',' in call"

end MissingPart

/-- The wording of the error when the expectation is not met. -/
def Expectation.message : Expectation → String
  | token m => m.message
  | part m => m.message

end AtomFrontEnd

import AtomFrontEnd.Recognizer.Command

/-!
The productions of AtomC, written as commands.

A unit is a run of structures, functions and variables. Structures hold
variables; functions have parameters and a block; blocks mix variables and
statements. Expressions have one production for each precedence level, and an
assignment is tried first: an operand with a sign, an index or a field, and
then `=`. Where two productions can begin alike, the one that is tried first
gives the cursor back if it does not apply.

Whether `struct` with a name is a type like any other is a switch. When it is
off, the two tokens are still taken before the type is refused.
-/

namespace AtomFrontEnd

open Command

namespace Level

def operators : Level → List TokenKind
  | disjunction => [.symbol .orOr]
  | conjunction => [.symbol .andAnd]
  | equality => [.symbol .equal, .symbol .notEqual]
  | relation => [.symbol .less, .symbol .lessEqual, .symbol .greater, .symbol .greaterEqual]
  | sum => [.symbol .plus, .symbol .minus]
  | product => [.symbol .star, .symbol .slash]

/-- What the operators of the level join. -/
def operand (l : Level) : Production := (MissingPart.rightOperand l).production

end Level

/-- The body of each production. -/
def rules (structTypes : Bool) : Production → Command
  -- (structDef | funcDef | varDef)* END
  | .unit =>
    call .structDef (become .unit) <|
    call .funcDef (become .unit) <|
    call .varDef (become .unit) <|
    token .endOfInput accept refuse
  -- struct ID { varDef* } ;
  | .structDef =>
    token (.keyword .kwStruct)
      (need .structName <| token (.symbol .leftBrace) (become .fields) reject)
      refuse
  | .fields =>
    call .varDef (become .fields) <| need .fieldsClose <| need .structEnd accept
  -- typeSpec ID arrayMark? (, ID arrayMark?)* ;
  | .varDef => call .typeSpec (token .identifier (become .moreVars) reject) reject
  | .moreVars =>
    optional .arrayMark <|
    token (.symbol .comma) (need .nextVariable <| become .moreVars) <|
    need .variablesEnd accept
  -- (typeSpec | void) ID ( (param (, param)*)? ) block
  | .funcDef =>
    let named :=
      token .identifier
        (token (.symbol .leftParen)
          (call .param (become .moreParams) <|
            need .paramsClose <| needPart .functionBody accept)
          reject)
        reject
    call .typeSpec named <| rewind <| token (.keyword .kwVoid) named reject
  | .moreParams =>
    token (.symbol .comma) (needPart .nextParam <| become .moreParams) <|
    need .paramsClose <| needPart .functionBody accept
  -- typeSpec ID arrayMark?
  | .param => call .typeSpec (token .identifier (optional .arrayMark accept) reject) reject
  -- int | double | char | struct ID
  | .typeSpec =>
    oneOf [.keyword .kwInt, .keyword .kwDouble, .keyword .kwChar] accept <|
    token (.keyword .kwStruct) (need .structName <| finish structTypes) refuse
  -- [ ]
  | .arrayMark => token (.symbol .leftBracket) (need .arrayClose accept) refuse
  | .statement =>
    call .block accept <|
    -- if ( expression ) statement (else statement)?
    token (.keyword .kwIf)
      (need .ifOpen <| needPart .ifCondition <| need .ifClose <| needPart .ifBranch <|
        token (.keyword .kwElse) (needPart .elseBranch accept) accept) <|
    -- while ( expression ) statement
    token (.keyword .kwWhile)
      (need .whileOpen <| needPart .whileCondition <| need .whileClose <|
        needPart .whileBody accept) <|
    -- for ( ; ; ) statement
    token (.keyword .kwFor)
      (need .forOpen <| need .forFirst <| need .forSecond <| need .forClose <|
        needPart .forBody accept) <|
    token (.keyword .kwBreak) (need .breakEnd accept) <|
    token (.keyword .kwReturn) (need .returnEnd accept) <|
    call .expression (need .expressionEnd accept) <|
    token (.symbol .semicolon) accept reject
  -- { (varDef | statement)* }
  | .block => token (.symbol .leftBrace) (become .blockItems) refuse
  | .blockItems =>
    call .varDef (become .blockItems) <|
    call .statement (become .blockItems) <|
    need .blockClose accept
  -- unary = expression | binary disjunction
  | .expression =>
    call .unary
      (token (.symbol .assign) (needPart .assignedValue accept) <|
        rewind <| become <| .binary .disjunction) <|
    become <| .binary .disjunction
  -- operand (operator operand)*
  | .binary l => call l.operand (become <| .moreOperands l) refuse
  | .moreOperands l =>
    oneOf l.operators (needPart (.rightOperand l) <| become <| .moreOperands l) accept
  -- ( typeSpec ) cast | unary
  | .cast =>
    token (.symbol .leftParen)
      (call .typeSpec (need .castClose <| needPart .castOperand accept) <|
        rewind <| become .unary) <|
    become .unary
  -- (- | !) unary | suffixed
  | .unary =>
    oneOf [.symbol .minus, .symbol .bang] (needPart .signedOperand accept) <|
    become .suffixed
  -- primary ([ expression ] | . ID)*
  | .suffixed => call .primary (become .suffixes) refuse
  | .suffixes =>
    token (.symbol .leftBracket) (needPart .index <| need .indexClose <| become .suffixes) <|
    token (.symbol .dot) (need .fieldName <| become .suffixes) accept
  -- ID ( ( (expression (, expression)*)? ) )? | literal | ( expression )
  | .primary =>
    token .identifier
      (token (.symbol .leftParen)
        (call .expression (become .moreArguments) <| need .argumentsClose accept) accept) <|
    oneOf [.literal .integer, .literal .real, .literal .character, .literal .string] accept <|
    token (.symbol .leftParen)
      (call .expression (need .groupClose accept) reject) refuse
  | .moreArguments =>
    token (.symbol .comma) (needPart .nextArgument <| become .moreArguments) <|
    need .argumentsClose accept

end AtomFrontEnd

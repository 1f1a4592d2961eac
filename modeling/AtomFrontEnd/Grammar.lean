import AtomFrontEnd.Token.Kind

/-!
The grammar of AtomC.

A form describes sequences of token kinds: one kind, a phrase of the language,
or a combination of these. `grammar` gives each phrase its form, and
`Derives structTypes f w` says that the kinds `w` are a sequence which the form
`f` describes. Nothing is said about how to find a derivation; a sequence may
have several, as every `else` after two open `if` statements shows.

Whether `struct` with a name is a type like any other is a switch.
-/

namespace AtomFrontEnd

/-- The precedence levels of the binary operators, the loosest first. -/
inductive Level where
  | disjunction | conjunction | equality | relation | sum | product
  deriving DecidableEq, Repr

/-- The phrases of the language. -/
inductive Phrase where
  | unit
  | structDef | varDef | funcDef | param
  | typeSpec
  /-- The empty brackets that make an array of a variable. -/
  | arrayMark
  | statement | block
  | expression
  | binary (level : Level)
  | cast | unary | suffixed | primary
  deriving DecidableEq, Repr

/-- How sequences of token kinds are described. -/
inductive Form where
  | empty
  | token (kind : TokenKind)
  | phrase (phrase : Phrase)
  | next (first second : Form)
  | either (first second : Form)
  | many (form : Form)
  deriving DecidableEq, Repr

namespace Form

def sequence : List Form → Form
  | [] => empty
  | [f] => f
  | f :: rest => next f (sequence rest)

def choice (first : Form) : List Form → Form
  | [] => first
  | f :: rest => either first (choice f rest)

def optional (f : Form) : Form := either f empty

/-- A form, and again after each separator. -/
def separated (f separator : Form) : Form := next f (many (next separator f))

def parenthesized (f : Form) : Form :=
  sequence [token (.symbol .leftParen), f, token (.symbol .rightParen)]

def keyword (w : Keyword) : Form := token (.keyword w)

def symbol (m : Symbol) : Form := token (.symbol m)

/-- A variable's name, and brackets if it is an array. -/
def declarator : Form := next (token .identifier) (optional (phrase .arrayMark))

end Form

open Form in
/-- The form of each phrase. -/
def grammar (structTypes : Bool) : Phrase → Form
  | .unit =>
    next (many (choice (phrase .structDef) [phrase .funcDef, phrase .varDef]))
      (token .endOfInput)
  | .structDef =>
    sequence [keyword .kwStruct, token .identifier, symbol .leftBrace,
      many (phrase .varDef), symbol .rightBrace, symbol .semicolon]
  | .varDef =>
    sequence [phrase .typeSpec, separated declarator (symbol .comma),
      symbol .semicolon]
  | .funcDef =>
    sequence [either (phrase .typeSpec) (keyword .kwVoid), token .identifier,
      parenthesized (optional (separated (phrase .param) (symbol .comma))), phrase .block]
  | .param => next (phrase .typeSpec) declarator
  | .typeSpec =>
    choice (keyword .kwInt) <| [keyword .kwDouble, keyword .kwChar]
      ++ if structTypes then [next (keyword .kwStruct) (token .identifier)] else []
  | .arrayMark => next (symbol .leftBracket) (symbol .rightBracket)
  | .statement =>
    choice (phrase .block)
      [sequence [keyword .kwIf, parenthesized (phrase .expression), phrase .statement,
        optional (next (keyword .kwElse) (phrase .statement))],
      sequence [keyword .kwWhile, parenthesized (phrase .expression), phrase .statement],
      sequence [keyword .kwFor, parenthesized (next (symbol .semicolon) (symbol .semicolon)),
        phrase .statement],
      next (keyword .kwBreak) (symbol .semicolon),
      next (keyword .kwReturn) (symbol .semicolon),
      next (phrase .expression) (symbol .semicolon),
      symbol .semicolon]
  | .block =>
    sequence [symbol .leftBrace, many (either (phrase .varDef) (phrase .statement)),
      symbol .rightBrace]
  | .expression =>
    either (sequence [phrase .unary, symbol .assign, phrase .expression])
      (phrase (.binary .disjunction))
  | .binary .disjunction => separated (phrase (.binary .conjunction)) (symbol .orOr)
  | .binary .conjunction => separated (phrase (.binary .equality)) (symbol .andAnd)
  | .binary .equality =>
    separated (phrase (.binary .relation)) (either (symbol .equal) (symbol .notEqual))
  | .binary .relation =>
    separated (phrase (.binary .sum))
      (choice (symbol .less) [symbol .lessEqual, symbol .greater, symbol .greaterEqual])
  | .binary .sum =>
    separated (phrase (.binary .product)) (either (symbol .plus) (symbol .minus))
  | .binary .product => separated (phrase .cast) (either (symbol .star) (symbol .slash))
  | .cast => either (next (parenthesized (phrase .typeSpec)) (phrase .cast)) (phrase .unary)
  | .unary =>
    either (next (either (symbol .minus) (symbol .bang)) (phrase .unary)) (phrase .suffixed)
  | .suffixed =>
    next (phrase .primary) <| many <|
      either (sequence [symbol .leftBracket, phrase .expression, symbol .rightBracket])
        (next (symbol .dot) (token .identifier))
  | .primary =>
    choice
      (next (token .identifier)
        (optional (parenthesized (optional (separated (phrase .expression) (symbol .comma))))))
      [token (.literal .integer), token (.literal .real), token (.literal .character),
        token (.literal .string), parenthesized (phrase .expression)]

/-- The sequences of token kinds that a form describes. -/
inductive Derives (structTypes : Bool) : Form → List TokenKind → Prop where
  | empty : Derives structTypes .empty []
  | token (kind : TokenKind) : Derives structTypes (.token kind) [kind]
  | phrase {p : Phrase} {w : List TokenKind} :
    Derives structTypes (grammar structTypes p) w → Derives structTypes (.phrase p) w
  | next {f g : Form} {u v : List TokenKind} :
    Derives structTypes f u → Derives structTypes g v → Derives structTypes (.next f g) (u ++ v)
  | first {f g : Form} {w : List TokenKind} :
    Derives structTypes f w → Derives structTypes (.either f g) w
  | second {f g : Form} {w : List TokenKind} :
    Derives structTypes g w → Derives structTypes (.either f g) w
  | none {f : Form} : Derives structTypes (.many f) []
  | more {f : Form} {u v : List TokenKind} :
    Derives structTypes f u → Derives structTypes (.many f) v →
    Derives structTypes (.many f) (u ++ v)

/-- The kinds are a beginning of some unit. -/
def Viable (structTypes : Bool) (w : List TokenKind) : Prop :=
  ∃ rest, Derives structTypes (.phrase .unit) (w ++ rest)

end AtomFrontEnd

/-!
Token kinds of AtomC.

A kind is an identifier, one of eleven reserved words, one of four literal
classes, one of twenty-three symbols, or the end of the input. Reserved words
and symbols have one spelling each (`Keyword.spelling`, `Symbol.spelling`),
and every kind has an upper-case name for the external form of a token
(`TokenKind.name`). `TokenKind.ofName?` reads that name back:
`ofName?_name` says it is the inverse.
-/

namespace AtomFrontEnd

inductive Keyword where
  | kwBreak | kwChar | kwDouble | kwElse | kwFor | kwIf | kwInt | kwReturn
  | kwStruct | kwVoid | kwWhile
  deriving DecidableEq, Repr

/-- The classes of literal constants. -/
inductive Literal where
  | integer | real | string | character
  deriving DecidableEq, Repr

/-- Punctuation and operators. -/
inductive Symbol where
  | comma | semicolon
  | leftParen | rightParen | leftBracket | rightBracket | leftBrace | rightBrace
  | plus | minus | star | slash | dot
  | andAnd | orOr | bang
  | assign | equal | notEqual | less | lessEqual | greater | greaterEqual
  deriving DecidableEq, Repr

/-- What a token is, its text and place apart. -/
inductive TokenKind where
  | identifier
  | keyword (word : Keyword)
  | literal (class_ : Literal)
  | symbol (mark : Symbol)
  | endOfInput
  deriving DecidableEq, Repr

/-! ## Spellings -/

namespace Keyword

/-- Every reserved word, once. -/
def all : List Keyword :=
  [.kwBreak, .kwChar, .kwDouble, .kwElse, .kwFor, .kwIf, .kwInt, .kwReturn,
    .kwStruct, .kwVoid, .kwWhile]

/-- How the word is written in a source text. -/
def spelling : Keyword → String
  | kwBreak => "break"
  | kwChar => "char"
  | kwDouble => "double"
  | kwElse => "else"
  | kwFor => "for"
  | kwIf => "if"
  | kwInt => "int"
  | kwReturn => "return"
  | kwStruct => "struct"
  | kwVoid => "void"
  | kwWhile => "while"

def name : Keyword → String
  | kwBreak => "BREAK"
  | kwChar => "CHAR"
  | kwDouble => "DOUBLE"
  | kwElse => "ELSE"
  | kwFor => "FOR"
  | kwIf => "IF"
  | kwInt => "INT"
  | kwReturn => "RETURN"
  | kwStruct => "STRUCT"
  | kwVoid => "VOID"
  | kwWhile => "WHILE"

/-- The reserved word written `s`; the comparison is exact and minds the case. -/
def ofSpelling? (s : String) : Option Keyword :=
  all.find? fun w => w.spelling == s

theorem ofSpelling?_spelling (w : Keyword) : ofSpelling? w.spelling = some w := by
  cases w <;> decide

end Keyword

namespace Symbol

/-- Every symbol, once. -/
def all : List Symbol :=
  [.comma, .semicolon, .leftParen, .rightParen, .leftBracket, .rightBracket,
    .leftBrace, .rightBrace, .plus, .minus, .star, .slash, .dot, .andAnd, .orOr,
    .bang, .assign, .equal, .notEqual, .less, .lessEqual, .greater, .greaterEqual]

/-- How the symbol is written in a source text, character by character. -/
def spelling : Symbol → List Char
  | comma => [',']
  | semicolon => [';']
  | leftParen => ['(']
  | rightParen => [')']
  | leftBracket => ['[']
  | rightBracket => [']']
  | leftBrace => ['{']
  | rightBrace => ['}']
  | plus => ['+']
  | minus => ['-']
  | star => ['*']
  | slash => ['/']
  | dot => ['.']
  | andAnd => ['&', '&']
  | orOr => ['|', '|']
  | bang => ['!']
  | assign => ['=']
  | equal => ['=', '=']
  | notEqual => ['!', '=']
  | less => ['<']
  | lessEqual => ['<', '=']
  | greater => ['>']
  | greaterEqual => ['>', '=']

def name : Symbol → String
  | comma => "COMMA"
  | semicolon => "SEMICOLON"
  | leftParen => "LPAR"
  | rightParen => "RPAR"
  | leftBracket => "LBRACKET"
  | rightBracket => "RBRACKET"
  | leftBrace => "LACC"
  | rightBrace => "RACC"
  | plus => "ADD"
  | minus => "SUB"
  | star => "MUL"
  | slash => "DIV"
  | dot => "DOT"
  | andAnd => "AND"
  | orOr => "OR"
  | bang => "NOT"
  | assign => "ASSIGN"
  | equal => "EQUAL"
  | notEqual => "NOTEQ"
  | less => "LESS"
  | lessEqual => "LESSEQ"
  | greater => "GREATER"
  | greaterEqual => "GREATEREQ"

theorem mem_all (m : Symbol) : m ∈ all := by
  cases m <;> decide

theorem length_spelling (m : Symbol) : m.spelling.length = 2 ∨ m.spelling.length = 1 := by
  cases m <;> decide

end Symbol

namespace Literal

def name : Literal → String
  | integer => "CT_INT"
  | real => "CT_REAL"
  | string => "CT_STRING"
  | character => "CT_CHAR"

end Literal

/-! ## Names of kinds -/

namespace TokenKind

def name : TokenKind → String
  | identifier => "ID"
  | keyword w => w.name
  | literal l => l.name
  | symbol m => m.name
  | endOfInput => "END"

def isKeyword : TokenKind → Bool
  | keyword _ => true
  | _ => false

/-- Every kind, once. -/
def all : List TokenKind :=
  [identifier] ++ Keyword.all.map keyword
    ++ [literal .integer, literal .real, literal .string, literal .character]
    ++ Symbol.all.map symbol ++ [endOfInput]

def ofName? (s : String) : Option TokenKind :=
  all.find? fun k => k.name == s

theorem ofName?_name (k : TokenKind) : ofName? k.name = some k := by
  cases k with
  | identifier => decide
  | keyword w => cases w <;> decide
  | literal l => cases l <;> decide
  | symbol m => cases m <;> decide
  | endOfInput => decide

end TokenKind

end AtomFrontEnd

import AtomFrontEnd.Source.Lexer

/-!
The lexical grammar.

`Spelled` says which texts a token of each kind can have, and `Lexeme` which stretches
of a source are one piece of it: a token in its written form, white space, or a
comment. A comment or a literal that nothing closes reaches to the end, so whether a
stretch is a piece depends on what follows it. `Munches` is the scanner that this
grammar asks for: it splits off, again and again, the longest stretch at the front that
is a piece, and one character where there is none. Nothing here says how a longest
piece is found.
-/

namespace AtomFrontEnd

open Text

/-! ## Numbers -/

def Digits (text : List Char) : Prop := ∀ c ∈ text, c.isDigit = true

/-- Zero, or digits that do not begin with one. -/
inductive Whole : List Char → Prop where
  | zero : Whole ['0']
  | digits {d : Char} {text : List Char} :
    d.isDigit = true → d ≠ '0' → Digits text → Whole (d :: text)

/-- A point with any digits, or nothing. -/
inductive Fraction : List Char → Prop where
  | none : Fraction []
  | point {text : List Char} : Digits text → Fraction ('.' :: text)

/-- A mark with a sign or none and any digits, or nothing. -/
inductive Exponent : List Char → Prop where
  | none : Exponent []
  | mark {m : Char} {sign text : List Char} :
    m ∈ ['e', 'E'] → sign ∈ [[], ['+'], ['-']] → Digits text → Exponent (m :: (sign ++ text))

/-- The texts of numbers: base sixteen, a zero before further digits, or decimal, which
is real if it has a fraction or an exponent. -/
inductive Number : Literal → List Char → Prop where
  | hexadecimal {m : Char} {text : List Char} :
    m ∈ ['x', 'X'] → (∀ c ∈ text, isHexDigit c = true) → Number .integer ('0' :: m :: text)
  | padded {text : List Char} : text ≠ [] → Digits text → Number .integer ('0' :: text)
  | decimal {whole fraction exponent : List Char} :
    Whole whole → Fraction fraction → Exponent exponent →
    Number (if fraction ++ exponent = [] then .integer else .real)
      (whole ++ (fraction ++ exponent))

/-! ## Tokens -/

def Literal.quote? : Literal → Option Char
  | string => some '"'
  | character => some '\''
  | _ => none

/-- The text of a token in its written form, which is that of a literal in its quotes. -/
def TokenKind.enclose (kind : TokenKind) (text : List Char) : List Char :=
  match kind with
  | literal l =>
    match l.quote? with
    | some quote => quote :: (text ++ [quote])
    | none => text
  | _ => text

/-- The texts that a token of the kind can have. -/
inductive Spelled : TokenKind → List Char → Prop where
  | keyword (w : Keyword) : Spelled (.keyword w) w.spelling.toList
  | identifier {c : Char} {text : List Char} :
    isWordStart c = true → (∀ d ∈ text, isWordPart d = true) →
    (∀ w : Keyword, w.spelling.toList ≠ c :: text) → Spelled .identifier (c :: text)
  | number {l : Literal} {text : List Char} : Number l text → Spelled (.literal l) text
  | quoted {l : Literal} {quote : Char} {text : List Char} :
    l.quote? = some quote → quote ∉ text → Spelled (.literal l) text
  | symbol (m : Symbol) : Spelled (.symbol m) m.spelling

/-! ## Pieces of a source -/

/-- The text is one piece of a source in which `following` comes after it. It is a
token of a kind with a text, or it is skipped. -/
inductive Lexeme : (following : List Char) → Option (TokenKind × List Char) → List Char → Prop where
  | blank {following text : List Char} :
    text ≠ [] → (∀ c ∈ text, isBlank c = true) → Lexeme following none text
  | lineComment {following text : List Char} :
    '\n' ∉ text → (∀ c ∈ following.head?, c = '\n') →
    Lexeme following none ('/' :: '/' :: text)
  | blockComment {following text : List Char} :
    ¬ ['*', '/'] <:+: text → Lexeme following none ('/' :: '*' :: (text ++ ['*', '/']))
  /-- The end closes the comment. -/
  | openComment {text : List Char} :
    ¬ ['*', '/'] <:+: text → Lexeme [] none ('/' :: '*' :: text)
  | token {following text : List Char} {kind : TokenKind} :
    Spelled kind text → Lexeme following (some (kind, text)) (kind.enclose text)
  /-- The end closes the literal. -/
  | openLiteral {text : List Char} {l : Literal} {quote : Char} :
    l.quote? = some quote → quote ∉ text → Lexeme [] (some (.literal l, text)) (quote :: text)

/-- The text is a piece at the front of `text ++ following`, and no other piece there
is longer. -/
structure LongestLexeme (following : List Char) (sense : Option (TokenKind × List Char))
    (text : List Char) : Prop where
  lexeme : Lexeme following sense text
  longest : ∀ {following' sense' text'}, Lexeme following' sense' text' →
    text' ++ following' = text ++ following → text'.length ≤ text.length

/-- No piece is at the front. -/
def Stray (source : List Char) : Prop :=
  ∀ following sense text, Lexeme following sense text → text ++ following ≠ source

/-- From the line on, the source is split into the pieces, which give the tokens and
the warnings. -/
inductive Munches :
    Nat → (source : List Char) → List (List Char) → List Token → List Warning → Prop where
  | done {line : Nat} : Munches line [] [] [.endAt line] []
  | skipped {line : Nat} {text following : List Char} {pieces tokens warnings} :
    LongestLexeme following none text →
    Munches (line + newlines text) following pieces tokens warnings →
    Munches line (text ++ following) (text :: pieces) tokens warnings
  | token {line : Nat} {kind : TokenKind} {value text following : List Char}
      {pieces tokens warnings} :
    LongestLexeme following (some (kind, value)) text →
    Munches (line + newlines text) following pieces tokens warnings →
    Munches line (text ++ following) (text :: pieces)
      (⟨kind, String.ofList value, line⟩ :: tokens) warnings
  | stray {line : Nat} {c : Char} {following : List Char} {pieces tokens warnings} :
    Stray (c :: following) →
    Munches (line + newlines [c]) following pieces tokens warnings →
    Munches line (c :: following) ([c] :: pieces) tokens (⟨c, line⟩ :: warnings)

end AtomFrontEnd

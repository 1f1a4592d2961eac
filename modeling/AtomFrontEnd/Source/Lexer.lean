import AtomFrontEnd.Source.Piece
import AtomFrontEnd.Token

/-!
The lexer: source text to tokens and warnings.

A lexer holds the text it has yet to read and the line it has reached. A scan
cuts that text into pieces and turns each into a token, a warning or nothing,
on the line where the piece begins; blanks and comments leave no trace but
their newlines. Every scan ends with an end token on the line reached. A stray
character is reported and passed over, so a scan never fails. After a scan
nothing is left to read (`scan_scan`).
-/

namespace AtomFrontEnd

/-- A character that belongs to no token, and its line. -/
structure Warning where
  char : Char
  line : Nat
  deriving DecidableEq, Repr

def Warning.message (w : Warning) : String := "Unknown character " ++ String.singleton w.char

/-- What a scan produces, in source order. -/
structure Scan where
  tokens : Array Token
  warnings : Array Warning
  deriving DecidableEq, Repr

/-- The text that follows the opening quote, up to the next quote of its kind. -/
def unquote : List Char → List Char
  | [] => []
  | quote :: rest => rest.takeWhile (· != quote)

/-- The text of a token of the given kind whose piece is `cs`. -/
def TokenKind.textOf (kind : TokenKind) (cs : List Char) : List Char :=
  match kind with
  | .literal .string => unquote cs
  | .literal .character => unquote cs
  | _ => cs

def newlines (cs : List Char) : Nat := cs.count '\n'

theorem newlines_append (front back : List Char) :
    newlines (front ++ back) = newlines front + newlines back := List.count_append

/-! ## Scanning -/

/-- A text part-way through: what has been produced, and the line reached. -/
structure Reading where
  line : Nat
  tokens : Array Token := #[]
  warnings : Array Warning := #[]

/-- Takes in the next piece. -/
def Reading.add (r : Reading) (piece : Piece) : Reading :=
  let line := r.line + newlines piece.text
  match piece.shape with
  | .token kind =>
    { r with
      line
      tokens := r.tokens.push ⟨kind, String.ofList (kind.textOf piece.text), r.line⟩ }
  | .stray char => { r with line, warnings := r.warnings.push ⟨char, r.line⟩ }
  | .blank => { r with line }
  | .lineComment => { r with line }
  | .blockComment => { r with line }

/-- What is left to read, and the line reached. -/
structure Lexer where
  rest : List Char
  line : Nat

namespace Lexer

def ofSource (source : String) : Lexer := ⟨source.toList, 1⟩

/-- Reads the whole of the rest. -/
def scan (lexer : Lexer) : Scan × Lexer :=
  let read := (piecesAfter #[] lexer.rest).foldl Reading.add { line := lexer.line }
  (⟨read.tokens.push (.endAt read.line), read.warnings⟩, ⟨[], read.line⟩)

/-- A second scan finds only the end, on the line that the first one reached. -/
theorem scan_scan (lexer : Lexer) :
    lexer.scan.2.scan = (⟨#[.endAt lexer.scan.2.line], #[]⟩, lexer.scan.2) := by
  simp [scan, piecesAfter]

end Lexer

/-- The tokens and warnings of a source text. -/
def scanSource (source : String) : Scan := (Lexer.ofSource source).scan.1

end AtomFrontEnd

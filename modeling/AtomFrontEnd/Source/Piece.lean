import AtomFrontEnd.Text.CharClass
import AtomFrontEnd.Token.Kind

/-!
Pieces: a source text cut into blanks, comments, tokens and stray characters.

`longestPiece` says what a non-empty text begins with and how many characters
of it belong to that first piece; it always takes as many as its class allows.
`pieces` cuts a whole text this way. Because a piece is a count of characters
taken from the front, nothing can be lost: `flatten_pieces` says that the
pieces, put together, are the source.
-/

namespace AtomFrontEnd

open Text

/-- What a stretch of source text is. -/
inductive Shape where
  | blank
  | lineComment
  | blockComment
  | token (kind : TokenKind)
  /-- A character that begins no piece of any other shape. -/
  | stray (char : Char)
  deriving DecidableEq, Repr

structure Piece where
  shape : Shape
  text : List Char
  deriving DecidableEq, Repr

/-! ## How far each class reaches -/

/-- How many characters at the front of the text satisfy `p`. -/
def runLength (p : Char → Bool) (cs : List Char) : Nat := (cs.takeWhile p).length

/-- The inside of a block comment reaches through the first closing mark, or to
the end of the text; `n` characters of it have been counted. -/
def blockCommentLength (n : Nat) : List Char → Nat
  | [] => n
  | c :: rest =>
    if c == '*' && rest.head? == some '/' then n + 2 else blockCommentLength (n + 1) rest

/-- A literal in quotes reaches through the next quote of its own kind, or to
the end of the text; `rest` is what follows the opening quote. -/
def quotedLength (quote : Char) (rest : List Char) : Nat :=
  let inside := runLength (· != quote) rest
  1 + inside + ((rest.drop inside).take 1).length

/-- A fraction is a point and any digits. -/
def fractionLength : List Char → Nat
  | '.' :: rest => 1 + runLength Char.isDigit rest
  | _ => 0

/-- An exponent may have one sign. -/
def signLength : List Char → Nat
  | '+' :: _ => 1
  | '-' :: _ => 1
  | _ => 0

/-- An exponent is its mark, a sign or none, and any digits. -/
def exponentLength : List Char → Nat
  | [] => 0
  | c :: rest =>
    if c == 'e' || c == 'E' then
      1 + signLength rest + runLength Char.isDigit (rest.drop (signLength rest))
    else 0

/-- A decimal number: digits, then a fraction, then an exponent. It is real if
it has either of the last two. -/
def decimalNumber (cs : List Char) : Literal × Nat :=
  let whole := runLength Char.isDigit cs
  let fraction := fractionLength (cs.drop whole)
  let exponent := exponentLength (cs.drop (whole + fraction))
  (if fraction + exponent = 0 then .integer else .real, whole + fraction + exponent)

/-- A number, at a digit. Base sixteen is announced by a zero and an `x`; a
zero before another digit makes an integer of digits alone. -/
def number : List Char → Literal × Nat
  | '0' :: c :: rest =>
    if c == 'x' || c == 'X' then (.integer, 2 + runLength isHexDigit rest)
    else if c.isDigit then (.integer, 1 + runLength Char.isDigit (c :: rest))
    else decimalNumber ('0' :: c :: rest)
  | cs => decimalNumber cs

def wordKind (text : List Char) : TokenKind :=
  match Keyword.ofSpelling? (String.ofList text) with
  | some w => .keyword w
  | none => .identifier

def word (cs : List Char) : TokenKind × Nat :=
  let length := runLength isWordPart cs
  (wordKind (cs.take length), length)

namespace Symbol

/-- Every symbol, those written with two characters before the others. -/
def longestFirst : List Symbol :=
  all.filter (fun m => m.spelling.length == 2) ++ all.filter fun m => m.spelling.length == 1

/-- The longest symbol that the text begins with. -/
def ofStart? (cs : List Char) : Option Symbol :=
  longestFirst.find? fun m => m.spelling.isPrefixOf cs

end Symbol

/-- What the text `c :: rest` begins with, and how far that reaches. -/
def longestPiece (c : Char) (rest : List Char) : Shape × Nat :=
  if isBlank c then (.blank, 1 + runLength isBlank rest)
  else if c == '/' && rest.head? == some '/' then
    (.lineComment, 2 + runLength (· != '\n') (rest.drop 1))
  else if c == '/' && rest.head? == some '*' then
    (.blockComment, 2 + blockCommentLength 0 (rest.drop 1))
  else if c == '"' then (.token (.literal .string), quotedLength c rest)
  else if c == '\'' then (.token (.literal .character), quotedLength c rest)
  else if c.isDigit then
    let (class_, length) := number (c :: rest)
    (.token (.literal class_), length)
  else if isWordStart c then
    let (kind, length) := word (c :: rest)
    (.token kind, length)
  else
    match Symbol.ofStart? (c :: rest) with
    | some m => (.token (.symbol m), m.spelling.length)
    | none => (.stray c, 1)

/-! ## Every piece has a character -/

theorem runLength_pos {p : Char → Bool} {c : Char} (rest : List Char) (h : p c = true) :
    0 < runLength p (c :: rest) := by
  simp [runLength, h]

theorem decimalNumber_pos {c : Char} (rest : List Char) (h : c.isDigit = true) :
    0 < (decimalNumber (c :: rest)).2 := by
  have := runLength_pos rest h
  simp only [decimalNumber]
  omega

theorem number_pos {c : Char} (rest : List Char) (h : c.isDigit = true) :
    0 < (number (c :: rest)).2 := by
  unfold number
  split
  · rename_i e
    obtain ⟨rfl, rfl⟩ := List.cons.inj e
    split
    · simp only
      omega
    · split
      · simp only
        omega
      · exact decimalNumber_pos _ h
  · exact decimalNumber_pos _ h

theorem word_pos {c : Char} (rest : List Char) (h : isWordStart c = true) :
    0 < (word (c :: rest)).2 :=
  runLength_pos rest (isWordPart_of_isWordStart h)

theorem Symbol.spelling_pos (m : Symbol) : 0 < m.spelling.length := by
  have := m.length_spelling
  omega

theorem longestPiece_pos (c : Char) (rest : List Char) : 0 < (longestPiece c rest).2 := by
  unfold longestPiece
  split
  · simp only
    omega
  split
  · simp only
    omega
  split
  · simp only
    omega
  split
  · simp only [quotedLength]
    omega
  split
  · simp only [quotedLength]
    omega
  split
  · exact number_pos rest ‹_›
  split
  · exact word_pos rest ‹_›
  split
  · exact Symbol.spelling_pos _
  · exact Nat.zero_lt_one

/-! ## Cutting a text -/

/-- The pieces of the text, after those already cut. -/
def piecesAfter (done : Array Piece) : List Char → Array Piece
  | [] => done
  | c :: rest =>
    let (shape, length) := longestPiece c rest
    piecesAfter (done.push ⟨shape, (c :: rest).take length⟩) (rest.drop (length - 1))
  termination_by cs => cs.length
  decreasing_by
    simp only [List.length_drop, List.length_cons]
    omega

/-- The pieces of the text, in order. -/
def pieces (cs : List Char) : List Piece := (piecesAfter #[] cs).toList

theorem toList_piecesAfter (done : Array Piece) (cs : List Char) :
    (piecesAfter done cs).toList = done.toList ++ pieces cs := by
  induction h : cs.length using Nat.strongRecOn generalizing cs done with
  | _ n ih =>
    cases cs with
    | nil => simp [pieces, piecesAfter]
    | cons c rest =>
      have shorter : (rest.drop ((longestPiece c rest).2 - 1)).length < n := by
        rw [← h, List.length_drop, List.length_cons]
        omega
      unfold pieces
      rw [piecesAfter, piecesAfter]
      simp only
      rw [ih _ shorter _ _ rfl, ih _ shorter _ _ rfl]
      simp

@[simp] theorem pieces_nil : pieces [] = [] := by
  simp [pieces, piecesAfter]

theorem pieces_cons (c : Char) (rest : List Char) :
    pieces (c :: rest) =
      ⟨(longestPiece c rest).1, (c :: rest).take (longestPiece c rest).2⟩ ::
        pieces ((c :: rest).drop (longestPiece c rest).2) := by
  have tail : (c :: rest).drop (longestPiece c rest).2 =
      rest.drop ((longestPiece c rest).2 - 1) := by
    obtain ⟨n, e⟩ := Nat.exists_eq_succ_of_ne_zero (Nat.ne_of_gt (longestPiece_pos c rest))
    rw [e]
    rfl
  rw [tail]
  conv => lhs; unfold pieces
  rw [piecesAfter]
  simp only
  rw [toList_piecesAfter]
  simp

/-- No character is lost, added or moved. -/
theorem flatten_pieces (cs : List Char) : ((pieces cs).map Piece.text).flatten = cs := by
  induction h : cs.length using Nat.strongRecOn generalizing cs with
  | _ n ih =>
    cases cs with
    | nil => simp
    | cons c rest =>
      have shorter : ((c :: rest).drop (longestPiece c rest).2).length < n := by
        have := longestPiece_pos c rest
        rw [← h, List.length_drop, List.length_cons]
        omega
      rw [pieces_cons, List.map_cons, List.flatten_cons, ih _ shorter _ rfl]
      exact List.take_append_drop _ _

end AtomFrontEnd

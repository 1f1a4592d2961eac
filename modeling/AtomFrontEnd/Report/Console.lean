import AtomFrontEnd.Report

/-!
Reports on a console: lines of text on two streams, and an exit status.

Tokens go to the output, one on a line, unless they are not wanted; warnings go
to the error stream; the verdict goes to one or the other. Each line may be
painted in a colour that says what it is.
-/

namespace AtomFrontEnd

/-- The colours of console lines. -/
inductive Color where
  | red | darkYellow | darkGrey | green | yellow | blue | cyan | white
  deriving DecidableEq, Repr

namespace Color

def number : Color → Nat
  | darkYellow => 3
  | darkGrey => 8
  | red => 9
  | green => 10
  | yellow => 11
  | blue => 12
  | cyan => 14
  | white => 15

/-- The text in the colour, between the terminal's commands to set it and to go
back to the colour of before. -/
def paint (color : Color) (text : String) : String :=
  "\x1b[38;5;" ++ Nat.repr color.number ++ "m" ++ text ++ "\x1b[39m"

end Color

/-- The colour of a token's line. -/
def TokenKind.color : TokenKind → Color
  | identifier => .white
  | keyword _ => .blue
  | literal .integer => .darkYellow
  | literal .real => .darkYellow
  | literal .string => .green
  | literal .character => .green
  | symbol _ => .cyan
  | endOfInput => .darkGrey

/-- A line of console text and its colour. -/
structure Line where
  color : Color
  text : String
  deriving DecidableEq, Repr

/-- The line as it is written, painted or not. -/
def Line.render (painted : Bool) (l : Line) : String :=
  (if painted then l.color.paint l.text else l.text) ++ "\n"

def Line.renderAll (painted : Bool) (lines : List Line) : String :=
  lines.foldl (fun written l => written ++ l.render painted) ""

/-- What a program leaves behind: two texts and an exit status. -/
structure Output where
  stdout : String
  stderr : String
  status : UInt8
  deriving DecidableEq, Repr

namespace Report

def outputLines (r : Report) (quiet : Bool) : List Line :=
  (if quiet then [] else r.tokens.toList.map fun t => ⟨t.kind.color, t.render⟩)
    ++ match r.verdict with
      | .ok _ => [⟨.green, "Parsed successfully"⟩]
      | .error _ => []

def errorLines (r : Report) : List Line :=
  (r.warnings.toList.map fun w => ⟨.yellow, w.message⟩)
    ++ match r.verdict with
      | .ok _ => []
      | .error e => [⟨.red, e.message⟩]

/-- The report as a program writes it. -/
def output (r : Report) (quiet painted : Bool) : Output :=
  { stdout := Line.renderAll painted (r.outputLines quiet)
    stderr := Line.renderAll painted r.errorLines
    status := if r.accepted then 0 else 1 }

end Report

end AtomFrontEnd

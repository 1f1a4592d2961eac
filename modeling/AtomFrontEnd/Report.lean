import AtomFrontEnd.Source.Lexer
import AtomFrontEnd.Parser

/-!
Reports: what there is to say about one source text.

A check scans the text and parses the tokens. Warnings about stray characters
do not count against the text: the verdict is on the tokens alone.
-/

namespace AtomFrontEnd

/-- The outcome of checking one source text. -/
structure Report where
  /-- In source order, the end token last. -/
  tokens : Array Token
  warnings : Array Warning
  verdict : Verdict
  /-- The moves back of the parser, in the order in which they were made. -/
  backtracks : List Backtrack

namespace Report

def accepted (r : Report) : Bool :=
  match r.verdict with
  | .ok _ => true
  | .error _ => false

end Report

def checkSource (source : String) (structTypes : Bool := false) : Report :=
  let scan := scanSource source
  let (verdict, parser) := (Parser.ofTokens scan.tokens structTypes).parse
  { tokens := scan.tokens
    warnings := scan.warnings
    verdict
    backtracks := parser.cursor.backtracks.reverse }

end AtomFrontEnd

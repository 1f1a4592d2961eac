import AtomFrontEnd.Report

/-!
Events: a check as a sequence of things that happened.

`Report.events` lists them in order: each stray character, the counts of the
scan, each move of the parser back, and the end of the parse. An event has a
level and a message; its further fields are in its constructor.
-/

namespace AtomFrontEnd

/-- How much an event matters. -/
inductive EventLevel where
  | warn | debug | trace
  deriving DecidableEq, Repr

def EventLevel.name : EventLevel → String
  | warn => "WARN"
  | debug => "DEBUG"
  | trace => "TRACE"

/-- Something that happens during a check. -/
inductive Event where
  | strayCharacter (warning : Warning)
  | scanned (tokens warnings : Nat)
  | movedBack (move : Backtrack)
  | parsed (tokens : Nat)
  | stopped (error : SyntaxError)
  deriving DecidableEq, Repr

namespace Event

def level : Event → EventLevel
  | strayCharacter _ => .warn
  | scanned _ _ => .debug
  | movedBack _ => .trace
  | parsed _ => .debug
  | stopped _ => .debug

def message : Event → String
  | strayCharacter w => w.message
  | scanned _ _ => "tokenized"
  | movedBack _ => "backtrack"
  | parsed _ => "parsed successfully"
  | stopped (.stalled _) => "unit stalled"
  | stopped (.fatal _ _) => "fatal syntax error"

end Event

/-- How the parse ended. -/
def Report.lastEvent (r : Report) : Event :=
  match r.verdict with
  | .ok _ => .parsed r.tokens.size
  | .error e => .stopped e

/-- What happened during the check, in order. -/
def Report.events (r : Report) : List Event :=
  r.warnings.toList.map .strayCharacter ++ [.scanned r.tokens.size r.warnings.size]
    ++ r.backtracks.map .movedBack ++ [r.lastEvent]

end AtomFrontEnd

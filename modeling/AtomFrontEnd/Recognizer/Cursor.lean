import Std.Data.TreeMap
import AtomFrontEnd.Recognizer.Rules
import AtomFrontEnd.Token.Sequence

/-!
The cursor: where a recognizer stands in its tokens, and what it has learnt.

Beside its position a cursor keeps the farthest place at which a token was
looked for and not found, every move back that it made, and, for the start of
each `unary` production that has finished, where that match ended or that there
was none. What is known is not found out a second time (`Cursor.lookup`): the
operand before a possible `=` would otherwise be read once more for every
parenthesis around it.
-/

namespace AtomFrontEnd

/-- A move of the cursor back to where a production began. -/
structure Backtrack where
  source : Nat
  target : Nat
  deriving DecidableEq, Repr

/-- What a recognizer is given. -/
structure Setting where
  tokens : TokenSequence
  /-- Whether `struct` with a name is a type like any other. -/
  structTypes : Bool
  /-- Whether finished `unary` productions are remembered. -/
  recalling : Bool := true

/-- A position in the tokens, and what was learnt on the way there. -/
structure Cursor where
  position : Nat := 0
  /-- The farthest position at which a token was missed. -/
  farthestMiss : Nat := 0
  /-- Starts of `unary` productions that have finished, with the end of the
  match, or nothing where there was none. -/
  known : Std.TreeMap Nat (Option Nat) := ∅
  /-- The moves back, the latest first. -/
  backtracks : List Backtrack := []

/-- A production at work, and the position at which it began. -/
structure Activation where
  production : Production
  start : Nat
  deriving DecidableEq, Repr

namespace Cursor

/-- Past a token of the given kind; an end token is never stepped over. -/
def advance (kind : TokenKind) (c : Cursor) : Cursor :=
  if kind = .endOfInput then c else { c with position := c.position + 1 }

/-- A token was looked for here and is not here. -/
def miss (c : Cursor) : Cursor := { c with farthestMiss := max c.farthestMiss c.position }

/-- Back to `start`; a move of no distance leaves no record. -/
def rewind (start : Nat) (c : Cursor) : Cursor :=
  if start = c.position then c
  else { c with position := start, backtracks := ⟨c.position, start⟩ :: c.backtracks }

/-- The result of a production that is known to match here up to some end, or
not to match, and the cursor after it. -/
def lookup (s : Setting) (p : Production) (c : Cursor) : Option (Bool × Cursor) :=
  if s.recalling = true ∧ p = .unary then
    match c.known[c.position]? with
    | none => none
    | some none => some (false, c)
    | some (some stop) => some (true, { c with position := stop })
  else none

/-- Remembers how the production that has just finished went. -/
def record (s : Setting) (a : Activation) (matched : Bool) (c : Cursor) : Cursor :=
  if s.recalling = true ∧ a.production = .unary then
    { c with known := c.known.insert a.start (if matched then some c.position else none) }
  else c

/-! ## What each operation does to the position -/

@[simp] theorem position_miss (c : Cursor) : c.miss.position = c.position := rfl

@[simp] theorem position_rewind (start : Nat) (c : Cursor) : (c.rewind start).position = start := by
  unfold rewind
  split
  · exact Eq.symm ‹_›
  · rfl

@[simp] theorem position_record (s : Setting) (a : Activation) (matched : Bool) (c : Cursor) :
    (c.record s a matched).position = c.position := by
  unfold record
  split <;> rfl

theorem position_advance {kind : TokenKind} (h : kind ≠ .endOfInput) (c : Cursor) :
    (c.advance kind).position = c.position + 1 := by
  simp [advance, h]

/-! ## What each operation does to the farthest miss -/

@[simp] theorem farthestMiss_advance (kind : TokenKind) (c : Cursor) :
    (c.advance kind).farthestMiss = c.farthestMiss := by
  unfold advance
  split <;> rfl

@[simp] theorem farthestMiss_miss (c : Cursor) :
    c.miss.farthestMiss = max c.farthestMiss c.position := rfl

@[simp] theorem farthestMiss_rewind (start : Nat) (c : Cursor) :
    (c.rewind start).farthestMiss = c.farthestMiss := by
  unfold rewind
  split <;> rfl

@[simp] theorem farthestMiss_record (s : Setting) (a : Activation) (matched : Bool) (c : Cursor) :
    (c.record s a matched).farthestMiss = c.farthestMiss := by
  unfold record
  split <;> rfl

/-! ## What each operation does to the moves back -/

@[simp] theorem backtracks_advance (kind : TokenKind) (c : Cursor) :
    (c.advance kind).backtracks = c.backtracks := by
  unfold advance
  split <;> rfl

@[simp] theorem backtracks_miss (c : Cursor) : c.miss.backtracks = c.backtracks := rfl

@[simp] theorem backtracks_record (s : Setting) (a : Activation) (matched : Bool) (c : Cursor) :
    (c.record s a matched).backtracks = c.backtracks := by
  unfold record
  split <;> rfl

theorem rewind_of_eq {start : Nat} {c : Cursor} (here : c.position = start) : c.rewind start = c :=
  if_pos here.symm

theorem length_backtracks_rewind_le (start : Nat) (c : Cursor) :
    (c.rewind start).backtracks.length ≤ c.backtracks.length + 1 := by
  unfold rewind
  split
  · exact Nat.le_succ _
  · exact Nat.le_refl _

/-! ## What each operation does to what is known -/

@[simp] theorem known_advance (kind : TokenKind) (c : Cursor) :
    (c.advance kind).known = c.known := by
  unfold advance
  split <;> rfl

@[simp] theorem known_miss (c : Cursor) : c.miss.known = c.known := rfl

@[simp] theorem known_rewind (start : Nat) (c : Cursor) : (c.rewind start).known = c.known := by
  unfold rewind
  split <;> rfl

end Cursor

end AtomFrontEnd

import AtomFrontEnd.Recognizer.Cursor

/-!
Runs: what a command does, from a cursor to an outcome and a cursor.

`Run s a k c o d` says that in setting `s` the command `k` of the activation
`a`, begun with cursor `c`, comes to the outcome `o` and the cursor `d`. There
is one rule for each thing that can happen; a production that is called either
is recalled, or is entered and finishes, or is entered and fails, and a failure
ends every run around it at once. A command comes to one outcome at most
(`Run.unique`).
-/

namespace AtomFrontEnd

/-- How a command ends. -/
inductive Outcome where
  /-- The production is over; it matched or it did not apply. -/
  | finished (matched : Bool)
  /-- The unit cannot be completed: at this token the expectation is not met. -/
  | failed (token : Token) (cause : Expectation)
  deriving DecidableEq, Repr

/-- The command that goes on after a production has matched or not. -/
def Command.choose (matched : Bool) (hit miss : Command) : Command :=
  match matched with
  | true => hit
  | false => miss

/-- A command, its cursor, its outcome and the cursor it leaves. -/
inductive Run (s : Setting) :
    Activation → Command → Cursor → Outcome → Cursor → Prop where
  | finish {a matched c} : Run s a (.finish matched) c (.finished matched) c
  | fail {a cause c} :
    Run s a (.fail cause) c (.failed (s.tokens.tokenAt c.position) cause) c
  | taken {a kind hit miss c o d} :
    s.tokens.kindAt c.position = kind → Run s a hit (c.advance kind) o d →
    Run s a (.token kind hit miss) c o d
  | missed {a kind hit miss c o d} :
    s.tokens.kindAt c.position ≠ kind → Run s a miss c.miss o d →
    Run s a (.token kind hit miss) c o d
  | rewound {a next c o d} :
    Run s a next (c.rewind a.start) o d → Run s a (.rewind next) c o d
  | recalled {a p hit miss c matched c' o d} :
    c.lookup s p = some (matched, c') → Run s a (.choose matched hit miss) c' o d →
    Run s a (.call p hit miss) c o d
  | entered {a p hit miss c matched c' o d} :
    c.lookup s p = none →
    Run s ⟨p, c.position⟩ (rules s.structTypes p) c (.finished matched) c' →
    Run s a (.choose matched hit miss) (c'.record s ⟨p, c.position⟩ matched) o d →
    Run s a (.call p hit miss) c o d
  | aborted {a p hit miss c token cause d} :
    c.lookup s p = none →
    Run s ⟨p, c.position⟩ (rules s.structTypes p) c (.failed token cause) d →
    Run s a (.call p hit miss) c (.failed token cause) d

theorem Run.unique {s : Setting} {a k c o o' d d'} (h : Run s a k c o d) (h' : Run s a k c o' d') :
    o = o' ∧ d = d' := by
  induction h generalizing o' d' with
  | finish => cases h'; exact ⟨rfl, rfl⟩
  | fail => cases h'; exact ⟨rfl, rfl⟩
  | taken here _ ih =>
    cases h' with
    | taken _ rest => exact ih rest
    | missed other _ => exact absurd here other
  | missed other _ ih =>
    cases h' with
    | taken here _ => exact absurd here other
    | missed _ rest => exact ih rest
  | rewound _ ih =>
    cases h' with
    | rewound rest => exact ih rest
  | recalled known _ ih =>
    cases h' with
    | recalled known' rest =>
      obtain ⟨rfl, rfl⟩ := Prod.mk.inj (Option.some.inj (known.symm.trans known'))
      exact ih rest
    | entered unknown _ _ => exact absurd known (by simp [unknown])
    | aborted unknown _ => exact absurd known (by simp [unknown])
  | entered unknown _ _ ihBody ihRest =>
    cases h' with
    | recalled known _ => exact absurd known (by simp [unknown])
    | entered _ body rest =>
      obtain ⟨e, rfl⟩ := ihBody body
      obtain rfl := Outcome.finished.inj e
      exact ihRest rest
    | aborted _ body => exact absurd (ihBody body).1 (by simp)
  | aborted unknown _ ihBody =>
    cases h' with
    | recalled known _ => exact absurd known (by simp [unknown])
    | entered _ body _ => exact absurd (ihBody body).1 (by simp)
    | aborted _ body => exact ihBody body

end AtomFrontEnd

import AtomFrontEnd.Recognizer.Totality

/-!
The machine that carries out commands.

A state holds the activation at work, its command, the cursor and the calls
that wait for an answer. The waiting calls are a list of their own, so that the
depth of nesting in a source text is bounded by memory alone. `State.step` does
one thing; `State.run` steps until the machine stops, which it does from every
state that leads to a stop (`Acc`), and the state in which a production is
called at a sound cursor is one (`State.halts_call`). What the machine answers
is what the rules of `Run` say (`call_eq_of_run`).
-/

namespace AtomFrontEnd

/-- A call that waits: by whom, and how the caller goes on. -/
structure Pending where
  caller : Activation
  hit : Command
  miss : Command

/-- The machine between two steps. -/
structure State where
  activation : Activation
  command : Command
  cursor : Cursor
  pending : List Pending

namespace State

/-- One step: the next state, or the outcome and the last cursor. -/
def step (s : Setting) : State → State ⊕ (Outcome × Cursor)
  | ⟨_, .finish matched, cursor, []⟩ => .inr (.finished matched, cursor)
  | ⟨activation, .finish matched, cursor, call :: pending⟩ =>
    .inl ⟨call.caller, .choose matched call.hit call.miss,
      cursor.record s activation matched, pending⟩
  | ⟨_, .fail cause, cursor, _⟩ =>
    .inr (.failed (s.tokens.tokenAt cursor.position) cause, cursor)
  | ⟨activation, .token kind hit miss, cursor, pending⟩ =>
    if s.tokens.kindAt cursor.position = kind then
      .inl ⟨activation, hit, cursor.advance kind, pending⟩
    else .inl ⟨activation, miss, cursor.miss, pending⟩
  | ⟨activation, .call production hit miss, cursor, pending⟩ =>
    match cursor.lookup s production with
    | some (matched, cursor) => .inl ⟨activation, .choose matched hit miss, cursor, pending⟩
    | none =>
      .inl ⟨⟨production, cursor.position⟩, rules s.structTypes production, cursor,
        ⟨activation, hit, miss⟩ :: pending⟩
  | ⟨activation, .rewind next, cursor, pending⟩ =>
    .inl ⟨activation, next, cursor.rewind activation.start, pending⟩

theorem step_call_of_unknown {s : Setting} {p : Production} {c : Cursor}
    (unknown : c.lookup s p = none) (a : Activation) (hit miss : Command)
    (pending : List Pending) :
    step s ⟨a, .call p hit miss, c, pending⟩ =
      .inl ⟨⟨p, c.position⟩, rules s.structTypes p, c, ⟨a, hit, miss⟩ :: pending⟩ := by
  simp only [step, unknown]

/-- The state in which a production is called at a cursor and nothing waits. -/
def call (s : Setting) (p : Production) (c : Cursor) : State :=
  ⟨⟨p, c.position⟩, rules s.structTypes p, c, []⟩

/-- The state that one step leads to. -/
def Next (s : Setting) (t u : State) : Prop := u.step s = .inl t

/-- Steps until the machine stops. -/
def run (s : Setting) (t : State) (h : Acc (Next s) t) : Outcome × Cursor :=
  match e : t.step s with
  | .inl u => run s u (h.inv e)
  | .inr answer => answer
  termination_by (⟨t, h⟩ : { t // Acc (Next s) t })
  decreasing_by exact e

/-! ## Stopping -/

/-- The machine stops, with this answer. -/
inductive Stops (s : Setting) : State → Outcome × Cursor → Prop where
  | now {t answer} : t.step s = .inr answer → Stops s t answer
  | later {t u answer} : t.step s = .inl u → Stops s u answer → Stops s t answer

theorem Stops.acc {s : Setting} {t : State} {answer : Outcome × Cursor} (h : Stops s t answer) :
    Acc (Next s) t := by
  induction h with
  | now e => exact ⟨_, fun u next => absurd (next.symm.trans e) (by simp)⟩
  | later e _ ih =>
    refine ⟨_, fun v next => ?_⟩
    obtain rfl := Sum.inl.inj (e.symm.trans next)
    exact ih

theorem Stops.run_eq {s : Setting} {t : State} {answer : Outcome × Cursor}
    (h : Stops s t answer) (acc : Acc (Next s) t) : t.run s acc = answer := by
  induction h with
  | now e =>
    rw [run]
    split
    · rename_i e'
      exact absurd (e'.symm.trans e) (by simp)
    · rename_i e'
      exact Sum.inr.inj (e'.symm.trans e)
  | later e _ ih =>
    rw [run]
    split
    · rename_i u' e'
      obtain rfl := Sum.inl.inj (e.symm.trans e')
      exact ih _
    · rename_i e'
      exact absurd (e'.symm.trans e) (by simp)

/-! ## The machine follows the rules -/

/-- The machine stops with this answer once the production has come to an outcome:
what waits goes on if the production finished, and a failure is the answer. -/
def StopsAfter (s : Setting) (a : Activation) (d : Cursor) (pending : List Pending)
    (answer : Outcome × Cursor) : Outcome → Prop
  | .finished matched => Stops s ⟨a, .finish matched, d, pending⟩ answer
  | .failed token cause => answer = (.failed token cause, d)

theorem stops_of_run {s : Setting} {a : Activation} {k : Command} {c : Cursor} {o : Outcome}
    {d : Cursor} (h : Run s a k c o d) (pending : List Pending) {answer : Outcome × Cursor}
    (rest : StopsAfter s a d pending answer o) :
    Stops s ⟨a, k, c, pending⟩ answer := by
  induction h generalizing pending with
  | finish => exact rest
  | fail =>
    subst rest
    exact .now rfl
  | taken here _ ih => exact .later (by simp [step, here]) (ih pending rest)
  | missed other _ ih => exact .later (by simp [step, other]) (ih pending rest)
  | rewound _ ih => exact .later rfl (ih pending rest)
  | recalled known _ ih => exact .later (by simp [step, known]) (ih pending rest)
  | entered unknown _ _ ihBody ihRest =>
    refine .later (step_call_of_unknown unknown ..) (ihBody _ ?_)
    exact .later rfl (ihRest pending rest)
  | aborted unknown _ ihBody =>
    exact .later (step_call_of_unknown unknown ..) (ihBody _ rest)

theorem stops_call_of_run {s : Setting} {p : Production} {c : Cursor} {o : Outcome} {d : Cursor}
    (h : Run s ⟨p, c.position⟩ (rules s.structTypes p) c o d) : Stops s (call s p c) (o, d) := by
  refine stops_of_run h [] ?_
  cases o with
  | finished matched => exact .now rfl
  | failed token cause => exact rfl

theorem halts_call (s : Setting) (p : Production) (c : Cursor) (sound : c.Sound s) :
    Acc (Next s) (call s p c) := by
  obtain ⟨o, d, h, _⟩ := exists_run s p c sound
  exact (stops_call_of_run h).acc

end State

/-- Calls a production where the cursor stands. -/
def Setting.call (s : Setting) (p : Production) (c : Cursor) (sound : c.Sound s) :
    Outcome × Cursor :=
  (State.call s p c).run s (State.halts_call s p c sound)

/-- The machine answers what the rules say. -/
theorem Setting.call_eq_of_run {s : Setting} {p : Production} {c : Cursor} {o : Outcome}
    {d : Cursor} (sound : c.Sound s) (h : Run s ⟨p, c.position⟩ (rules s.structTypes p) c o d) :
    s.call p c sound = (o, d) :=
  (State.stops_call_of_run h).run_eq _

/-- Whether the tokens make a unit, and the last cursor. -/
def Setting.recognize (s : Setting) : Outcome × Cursor := s.call .unit {} (.initial s)

/-- The recogniser's answer is a run of the whole unit, and the only one. -/
theorem Setting.run_recognize (s : Setting) :
    Run s ⟨.unit, 0⟩ (rules s.structTypes .unit) {} s.recognize.1 s.recognize.2 := by
  obtain ⟨o, d, h, _⟩ := exists_run s .unit {} (.initial s)
  rw [Setting.recognize, call_eq_of_run (.initial s) h]
  exact h

end AtomFrontEnd

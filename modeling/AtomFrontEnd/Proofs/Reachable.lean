import AtomFrontEnd.Parser

/-!
The states that a parse goes through.

`State.Moves` lists what one step of the machine can do, and `Setting.Reaches` the
states that the steps of a parse lead to. In each of them the cursor is confined: it has
not passed the first end token, nor has the farthest miss, and what it knows of a match
ends after its start and no later than that token (`Setting.Reaches.sound`). To keep
this from step to step takes one thing more. What is remembered of a match must lie
ahead of its start, so each activation must be on track, those included that wait for a
call; whichever way the call ends, they go on on track (`Pending.Awaits`).
-/

namespace AtomFrontEnd

variable {s : Setting} {t u : State} {a : Activation}

/-! ## Steps -/

namespace State

/-- What one step of the machine does. -/
inductive Moves (s : Setting) : State → State → Prop where
  | returned {a matched c} {call : Pending} {pending} :
    Moves s ⟨a, .finish matched, c, call :: pending⟩
      ⟨call.caller, .choose matched call.hit call.miss, c.record s a matched, pending⟩
  | taken {a kind hit miss c pending} : s.tokens.kindAt c.position = kind →
    Moves s ⟨a, .token kind hit miss, c, pending⟩ ⟨a, hit, c.advance kind, pending⟩
  | missed {a kind hit miss c pending} : s.tokens.kindAt c.position ≠ kind →
    Moves s ⟨a, .token kind hit miss, c, pending⟩ ⟨a, miss, c.miss, pending⟩
  | recalled {a p hit miss c matched c' pending} : c.lookup s p = some (matched, c') →
    Moves s ⟨a, .call p hit miss, c, pending⟩ ⟨a, .choose matched hit miss, c', pending⟩
  | entered {a p hit miss c pending} : c.lookup s p = none →
    Moves s ⟨a, .call p hit miss, c, pending⟩
      ⟨⟨p, c.position⟩, rules s.structTypes p, c, ⟨a, hit, miss⟩ :: pending⟩
  | rewound {a next c pending} :
    Moves s ⟨a, .rewind next, c, pending⟩ ⟨a, next, c.rewind a.start, pending⟩

/-- How the machine stops. -/
inductive Halts (s : Setting) : State → Outcome × Cursor → Prop where
  | finished {a matched c} : Halts s ⟨a, .finish matched, c, []⟩ (.finished matched, c)
  | failed {a cause c pending} :
    Halts s ⟨a, .fail cause, c, pending⟩ (.failed (s.tokens.tokenAt c.position) cause, c)

theorem step_eq_inl_iff : t.step s = .inl u ↔ Moves s t u := by
  constructor
  · intro e
    obtain ⟨a, k, c, pending⟩ := t
    cases k with
    | finish matched =>
      cases pending with
      | nil => cases e
      | cons call pending =>
        cases e
        exact .returned
    | fail cause => cases e
    | token kind hit miss =>
      simp only [step] at e
      split at e
      · cases e
        exact .taken ‹_›
      · cases e
        exact .missed ‹_›
    | call p hit miss =>
      cases known : c.lookup s p with
      | some result =>
        simp only [step, known] at e
        cases e
        exact .recalled known
      | none =>
        rw [step_call_of_unknown known] at e
        cases e
        exact .entered known
    | rewind next =>
      cases e
      exact .rewound
  · intro h
    cases h with
    | returned => rfl
    | taken here => simp only [step, if_pos here]
    | missed other => simp only [step, if_neg other]
    | recalled known => simp only [step, known]
    | entered unknown => exact step_call_of_unknown unknown ..
    | rewound => rfl

theorem step_eq_inr_iff {answer : Outcome × Cursor} :
    t.step s = .inr answer ↔ Halts s t answer := by
  constructor
  · intro e
    obtain ⟨a, k, c, pending⟩ := t
    cases k with
    | finish matched =>
      cases pending with
      | nil =>
        cases e
        exact .finished
      | cons call pending => cases e
    | fail cause =>
      cases e
      exact .failed
    | token kind hit miss =>
      simp only [step] at e
      split at e <;> cases e
    | call p hit miss =>
      simp only [step] at e
      split at e <;> cases e
    | rewind next => cases e
  · intro h
    cases h <;> rfl

end State

/-- The states that the recognition of the tokens goes through. -/
inductive Setting.Reaches (s : Setting) : State → Prop where
  | start : s.Reaches (.call s .unit {})
  | next {t u : State} : s.Reaches t → t.step s = .inl u → s.Reaches u

theorem State.Stops.exists_halts {answer : Outcome × Cursor} (h : State.Stops s t answer)
    (reached : s.Reaches t) : ∃ u, s.Reaches u ∧ State.Halts s u answer := by
  induction h with
  | now e => exact ⟨_, reached, State.step_eq_inr_iff.mp e⟩
  | later e _ ih => exact ih (reached.next e)

theorem Setting.stops_recognize (s : Setting) : State.Stops s (.call s .unit {}) s.recognize :=
  State.stops_call_of_run s.run_recognize

theorem Setting.exists_last (s : Setting) :
    ∃ t, s.Reaches t ∧ State.Halts s t s.recognize ∧ t.cursor = s.recognize.2 := by
  obtain ⟨t, reached, halts⟩ := s.stops_recognize.exists_halts .start
  refine ⟨t, reached, halts, ?_⟩
  generalize s.recognize = answer at halts
  cases halts <;> rfl

/-- What the machine answers in a state that it has reached is the answer of the parse. -/
theorem Setting.Reaches.recognize_eq {answer : Outcome × Cursor} (h : s.Reaches t)
    (halts : State.Halts s t answer) : s.recognize = answer := by
  have stops : State.Stops s (.call s .unit {}) answer := by
    have rest : State.Stops s t answer := .now (State.step_eq_inr_iff.mpr halts)
    clear halts
    induction h with
    | start => exact rest
    | next _ e ih => exact ih (.later e rest)
  exact stops.run_eq _

/-! ## What every state keeps -/

/-- Neither the cursor nor anything that it knows lies past the first end token, and
what it knows of a match lies ahead of its start. -/
structure Cursor.Confined (s : Setting) (c : Cursor) : Prop extends c.Sound s where
  farthestMiss_le : c.farthestMiss ≤ s.tokens.firstEnd

/-- Whichever way the production of `a` ends, the call that waits for it goes on on track. -/
def Pending.Awaits (call : Pending) (a : Activation) : Prop :=
  ∀ (matched : Bool) (i : Nat), a.start ≤ i →
    (matched = true → a.production.nullable = false → a.start < i) →
    (Command.choose matched call.hit call.miss).OnTrack call.caller i

/-- Each of the calls that wait for `a` goes on on track. -/
def Activation.Awaited : Activation → List Pending → Prop
  | _, [] => True
  | a, call :: pending => call.Awaits a ∧ call.caller.Awaited pending

/-- The cursor is confined, and everything that is at work or waits is on track. -/
structure State.Sound (s : Setting) (t : State) : Prop where
  confined : t.cursor.Confined s
  onTrack : t.command.OnTrack t.activation t.cursor.position
  awaited : t.activation.Awaited t.pending

theorem Cursor.eq_of_lookup {p : Production} {matched : Bool} {c c' : Cursor}
    (known : c.lookup s p = some (matched, c')) : c' = { c with position := c'.position } := by
  unfold Cursor.lookup at known
  split at known
  · split at known <;> cases known <;> rfl
  · cases known

theorem Cursor.farthestMiss_of_lookup {p : Production} {matched : Bool} {c c' : Cursor}
    (known : c.lookup s p = some (matched, c')) : c'.farthestMiss = c.farthestMiss := by
  rw [Cursor.eq_of_lookup known]

theorem Cursor.backtracks_of_lookup {p : Production} {matched : Bool} {c c' : Cursor}
    (known : c.lookup s p = some (matched, c')) : c'.backtracks = c.backtracks := by
  rw [Cursor.eq_of_lookup known]

theorem Cursor.known_of_lookup {p : Production} {matched : Bool} {c c' : Cursor}
    (known : c.lookup s p = some (matched, c')) : c'.known = c.known := by
  rw [Cursor.eq_of_lookup known]

namespace Cursor.Confined

variable {c : Cursor}

theorem initial (s : Setting) : Cursor.Confined s {} := ⟨.initial s, Nat.zero_le _⟩

theorem advance {kind : TokenKind} (h : c.Confined s) (here : s.tokens.kindAt c.position = kind) :
    (c.advance kind).Confined s := by
  refine ⟨h.toSound.advance here, ?_⟩
  rw [farthestMiss_advance]
  exact h.farthestMiss_le

theorem miss (h : c.Confined s) : c.miss.Confined s :=
  ⟨h.toSound.miss, Nat.max_le.mpr ⟨h.farthestMiss_le, h.position_le⟩⟩

theorem rewind {start : Nat} (h : c.Confined s) (le : start ≤ c.position) :
    (c.rewind start).Confined s := by
  refine ⟨h.toSound.rewind le, ?_⟩
  rw [farthestMiss_rewind]
  exact h.farthestMiss_le

theorem lookup {p : Production} {matched : Bool} {c' : Cursor} (h : c.Confined s)
    (known : c.lookup s p = some (matched, c')) : c'.Confined s := by
  refine ⟨(h.toSound.lookup known).1, ?_⟩
  rw [Cursor.farthestMiss_of_lookup known]
  exact h.farthestMiss_le

theorem record {matched : Bool} (h : c.Confined s)
    (lt : matched = true → a.production = .unary → a.start < c.position) :
    (c.record s a matched).Confined s := by
  refine ⟨h.toSound.record lt, ?_⟩
  rw [farthestMiss_record]
  exact h.farthestMiss_le

theorem stalledAt_le (h : c.Confined s) : c.stalledAt ≤ s.tokens.firstEnd :=
  Nat.max_le.mpr ⟨h.farthestMiss_le, h.position_le⟩

end Cursor.Confined

theorem State.Sound.start (s : Setting) : State.Sound s (.call s .unit {}) :=
  ⟨.initial s, .rules s.structTypes .unit 0, trivial⟩

theorem State.Sound.move (h : t.Sound s) (e : State.Moves s t u) : u.Sound s := by
  cases e with
  | @returned a matched c call pending =>
    have far : matched = true → a.production.nullable = false → a.start < c.position :=
      h.onTrack.start_lt
    have confined : (c.record s a matched).Confined s := by
      refine h.confined.record fun hit isUnary => far hit ?_
      rw [isUnary]
      rfl
    have goesOn := h.awaited.1 matched c.position h.onTrack.start_le far
    exact ⟨confined, by rwa [Cursor.position_record], h.awaited.2⟩
  | taken here => exact ⟨h.confined.advance here, h.onTrack.taken, h.awaited⟩
  | missed => exact ⟨h.confined.miss, h.onTrack.missed, h.awaited⟩
  | recalled known =>
    obtain ⟨-, le, far, -⟩ := h.confined.toSound.lookup known
    exact ⟨h.confined.lookup known, h.onTrack.resumed le fun hit _ => far hit, h.awaited⟩
  | entered =>
    have awaits : Pending.Awaits ⟨_, _, _⟩ ⟨_, _⟩ := fun _ _ le far => h.onTrack.resumed le far
    exact ⟨h.confined, .rules .., awaits, h.awaited⟩
  | rewound =>
    refine ⟨h.confined.rewind h.onTrack.start_le, ?_, h.awaited⟩
    simp only [Cursor.position_rewind]
    exact h.onTrack.rewound

theorem Setting.Reaches.sound (h : s.Reaches t) : t.Sound s := by
  induction h with
  | start => exact .start s
  | next _ e ih => exact ih.move (State.step_eq_inl_iff.mp e)

theorem Setting.confined_recognize (s : Setting) : s.recognize.2.Confined s := by
  obtain ⟨t, reached, -, last⟩ := s.exists_last
  rw [← last]
  exact reached.sound.confined

end AtomFrontEnd

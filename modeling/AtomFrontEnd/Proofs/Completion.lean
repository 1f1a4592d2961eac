import AtomFrontEnd.Proofs.Probe
import AtomFrontEnd.Proofs.Reachable

/-!
What the productions at work have done, and what they will do.

Every activation that is at work or waits was entered at some cursor, and however its command
comes out where it stands now, so does its whole body from there (`Activation.Entered`). A call
that waits goes on so by whichever answer it is given (`Activation.Completes`). Each step of the
machine is a step of a run, so all steps keep this (`State.Coherent.move`). When a production is
over in a state of a parse, its body has thus been run from its start (`Setting.Reaches.exists_body`),
and what the cursor then remembers of it is true.
-/

namespace AtomFrontEnd

variable {s : Setting} {t u : State} {a : Activation} {k k' : Command} {b c c' d : Cursor}
  {o : Outcome} {p : Production} {matched : Bool} {pending : List Pending}

/-! ## Runs and true memories -/

/-- Beside a run with a true memory there is one that does not remember, to the same place, and
the memory stays true. -/
theorem Run.forgotten (h : Run s ⟨p, b.position⟩ (rules s.structTypes p) b o d) (sound : b.Sound s)
    (truthful : b.Truthful s) :
    d.Truthful s ∧ ∃ e, Run s.forgetful ⟨p, b.position⟩ (rules s.structTypes p) b o e ∧
      d.position = e.position := by
  obtain ⟨o', e, body, -⟩ := exists_run s.forgetful p b ⟨sound.position_le, sound.known_lt⟩
  obtain ⟨d', again, there, truthful'⟩ := body.remembering rfl truthful
  obtain ⟨rfl, rfl⟩ := h.unique again
  exact ⟨truthful', e, body, there⟩

theorem Cursor.Truthful.lookup (h : c.Truthful s) (known : c.lookup s p = some (matched, c')) :
    c'.Truthful s := by
  intro start result entry
  rw [Cursor.known_of_lookup known] at entry
  exact h _ _ entry

theorem Cursor.Truthful.recorded (truthful : b.Truthful s) (sound : b.Sound s)
    (h : Run s ⟨p, b.position⟩ (rules s.structTypes p) b (.finished matched) d) :
    (d.record s ⟨p, b.position⟩ matched).Truthful s := by
  obtain ⟨truthful', e, body, there⟩ := h.forgotten sound truthful
  exact truthful'.record there body

/-! ## Activations that have been entered -/

/-- The activation was entered at the cursor `b`, among the tokens and with a true memory, and
however the command comes out from the cursor `c`, so does the body from `b`. -/
structure Activation.Entered (s : Setting) (a : Activation) (b : Cursor) (k : Command)
    (c : Cursor) : Prop where
  here : b.position = a.start
  sound : b.Sound s
  truthful : b.Truthful s
  body : ∀ o d, Run s a k c o d → Run s a (rules s.structTypes a.production) b o d

/-- The activation has been entered, and once its body is over the call that waits for it goes on
in an activation of which the same holds. -/
def Activation.Completes (s : Setting) : Activation → List Pending → Command → Cursor → Prop
  | a, [], k, c => ∃ b, a.Entered s b k c
  | a, call :: pending, k, c =>
    ∃ b, a.Entered s b k c ∧
      ∀ matched d, Run s a (rules s.structTypes a.production) b (.finished matched) d →
        call.caller.Completes s pending (.choose matched call.hit call.miss) (d.record s a matched)

namespace Activation.Completes

theorem exists_entered (h : a.Completes s pending k c) : ∃ b, a.Entered s b k c := by
  cases pending with
  | nil => exact h
  | cons call pending =>
    obtain ⟨b, entered, -⟩ := h
    exact ⟨b, entered⟩

/-- A command may be replaced by one whose runs are the ends of runs of its own. -/
theorem step (h : a.Completes s pending k c)
    (within : ∀ o d, Run s a k' c' o d → Run s a k c o d) : a.Completes s pending k' c' := by
  cases pending with
  | nil =>
    obtain ⟨b, here, sound, truthful, body⟩ := h
    exact ⟨b, here, sound, truthful, fun o d run => body o d (within o d run)⟩
  | cons call pending =>
    obtain ⟨b, ⟨here, sound, truthful, body⟩, goesOn⟩ := h
    exact ⟨b, ⟨here, sound, truthful, fun o d run => body o d (within o d run)⟩, goesOn⟩

theorem entered {hit miss : Command} (h : a.Completes s pending (.call p hit miss) c)
    (unknown : c.lookup s p = none) (sound : c.Sound s) (truthful : c.Truthful s) :
    Activation.Completes s ⟨p, c.position⟩ (⟨a, hit, miss⟩ :: pending) (rules s.structTypes p) c := by
  refine ⟨c, ⟨rfl, sound, truthful, fun _ _ run => run⟩, fun matched d body => ?_⟩
  exact h.step fun _ _ rest => .entered unknown body rest

end Activation.Completes

/-! ## States -/

/-- What is remembered in the state is true, and what is at work or waits has been entered. -/
structure State.Coherent (s : Setting) (t : State) : Prop where
  truthful : t.cursor.Truthful s
  completes : t.activation.Completes s t.pending t.command t.cursor

theorem State.Coherent.start (s : Setting) : State.Coherent s (.call s .unit {}) := by
  have truthful : Cursor.Truthful s {} := fun start result known => by simp at known
  exact ⟨truthful, {}, rfl, .initial s, truthful, fun _ _ run => run⟩

theorem State.Coherent.move (h : t.Coherent s) (sound : t.Sound s) (e : State.Moves s t u) :
    u.Coherent s := by
  obtain ⟨truthful, completes⟩ := h
  cases e with
  | @returned a matched c call pending =>
    obtain ⟨b, entered, goesOn⟩ := completes
    obtain ⟨p, start⟩ := a
    obtain rfl : b.position = start := entered.here
    have body := entered.body _ _ .finish
    exact ⟨entered.truthful.recorded entered.sound body, goesOn _ _ body⟩
  | taken here => exact ⟨truthful.advance _, completes.step fun _ _ run => .taken here run⟩
  | missed other => exact ⟨truthful.miss, completes.step fun _ _ run => .missed other run⟩
  | recalled known =>
    exact ⟨truthful.lookup known, completes.step fun _ _ run => .recalled known run⟩
  | entered unknown =>
    exact ⟨truthful, completes.entered unknown sound.confined.toSound truthful⟩
  | rewound => exact ⟨truthful.rewind _, completes.step fun _ _ run => .rewound run⟩

namespace Setting.Reaches

theorem coherent (h : s.Reaches t) : t.Coherent s := by
  induction h with
  | start => exact .start s
  | next reached e ih => exact ih.move reached.sound (State.step_eq_inl_iff.mp e)

theorem truthful (h : s.Reaches t) : t.cursor.Truthful s := h.coherent.truthful

/-- A production that is over in a state of a parse has been run from its start. -/
theorem exists_body (h : s.Reaches t) (over_ : t.command = .finish matched) :
    ∃ b : Cursor, b.position = t.activation.start ∧
      Run s t.activation (rules s.structTypes t.activation.production) b (.finished matched)
        t.cursor := by
  obtain ⟨b, entered⟩ := h.coherent.completes.exists_entered
  rw [over_] at entered
  exact ⟨b, entered.here, entered.body _ _ .finish⟩

end Setting.Reaches

end AtomFrontEnd

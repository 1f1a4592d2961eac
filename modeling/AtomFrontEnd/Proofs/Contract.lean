import AtomFrontEnd.Proofs.Completion
import AtomFrontEnd.Proofs.Retreat

/-!
How productions leave the cursor.

A production that matches has taken a token, and one that refuses has given back what it took:
its caller can try another at the same place. A type alone may refuse behind `struct` and a name,
where these make no type (`Setting.Honours`). This holds of the runs of all bodies
(`Run.honours`). What is remembered is subject to it as well (`Setting.exists_honoured`), so it
holds of whatever could be called in a state of a parse, and of the productions that are over in
it (`productions_honour_cursor`).
-/

namespace AtomFrontEnd

variable {s : Setting} {c d : Cursor} {p : Production} {matched : Bool}

/-- A match ends behind its start, and a refusal at its start. Only a type may be refused behind
`struct` and a name, if these make no type. -/
structure Setting.Honours (s : Setting) (p : Production) (start : Nat) (matched : Bool)
    (stop : Nat) : Prop where
  start_lt : matched = true → start < stop
  stop_eq : matched = false → stop = start ∨
    p = .typeSpec ∧ s.structTypes = false ∧ stop = start + 2 ∧
      s.tokens.kindAt start = .keyword .kwStruct ∧ s.tokens.kindAt (start + 1) = .identifier

theorem Run.honours_of_refused
    (h : Run s ⟨p, c.position⟩ (rules s.structTypes p) c (.finished false) d)
    (nonempty : p.nullable = false) : s.Honours p c.position false d.position := by
  refine ⟨fun e => (by cases e), fun _ => h.at_start_or_struct ?_⟩
  rintro rfl
  cases nonempty

theorem Run.honours (h : Run s ⟨p, c.position⟩ (rules s.structTypes p) c (.finished matched) d)
    (sound : c.Sound s) (nonempty : p.nullable = false) :
    s.Honours p c.position matched d.position := by
  cases matched with
  | true =>
    obtain ⟨-, far⟩ := h.sound sound
    exact ⟨fun _ => far rfl nonempty, fun e => by cases e⟩
  | false => exact h.honours_of_refused nonempty

theorem Cursor.Sound.honours (sound : c.Sound s) (known : c.lookup s p = some (matched, d)) :
    s.Honours p c.position matched d.position := by
  obtain ⟨-, -, far, -⟩ := sound.lookup known
  refine ⟨far, ?_⟩
  rintro rfl
  obtain rfl := Cursor.lookup_refused known
  exact .inl rfl

/-- A production that is called comes to an outcome, and unless it fails it leaves the cursor as
it should. -/
theorem Setting.exists_honoured (a : Activation) (sound : c.Sound s) (nonempty : p.nullable = false) :
    ∃ o d, Run s a (.become p) c o d ∧
      ∀ matched, o = .finished matched → s.Honours p c.position matched d.position := by
  have finishes : ∀ (matched : Bool) (d : Cursor),
      Run s a (.choose matched .accept .refuse) d (.finished matched) d := by
    intro matched d
    cases matched with
    | true => exact .finish
    | false => exact .finish
  cases known : c.lookup s p with
  | some result =>
    obtain ⟨answer, d⟩ := result
    refine ⟨_, d, .recalled known (finishes answer d), ?_⟩
    rintro matched ⟨⟩
    exact sound.honours known
  | none =>
    obtain ⟨o, d, body, -⟩ := exists_run s p c sound
    cases o with
    | failed t cause => exact ⟨_, d, .aborted known body, fun _ e => by cases e⟩
    | finished answer =>
      refine ⟨_, _, .entered known body (finishes answer _), ?_⟩
      rintro matched ⟨⟩
      rw [Cursor.position_record]
      exact body.honours sound nonempty

/-- In every state of a parse, each production that may not match nothing comes to an outcome if
it is called where the cursor stands, and unless it fails it leaves the cursor behind its start if
it matches and at its start if it refuses; a type alone may be refused behind `struct` and a name,
if these make no type. The same holds of each such production that is over in the state. -/
theorem productions_honour_cursor (tokens : Array Token) (structTypes : Bool) (t : State)
    (reached : (Parser.ofTokens tokens structTypes).setting.Reaches t) :
    let s := (Parser.ofTokens tokens structTypes).setting
    (∀ p : Production, p.nullable = false →
      ∃ o d, Run s t.activation (.become p) t.cursor o d ∧
        ∀ matched, o = .finished matched → s.Honours p t.cursor.position matched d.position) ∧
    ∀ matched, t.command = .finish matched → t.activation.production.nullable = false →
      s.Honours t.activation.production t.activation.start matched t.cursor.position := by
  intro s
  have sound := reached.sound
  refine ⟨fun p nonempty => ?_, fun matched over_ nonempty => ?_⟩
  · exact Setting.exists_honoured _ sound.confined.toSound nonempty
  · obtain ⟨b, here, body⟩ := reached.exists_body over_
    obtain ⟨⟨p, start⟩, k, d, pending⟩ := t
    subst here
    cases matched with
    | false => exact body.honours_of_refused nonempty
    | true =>
      have onTrack := sound.onTrack
      rw [over_] at onTrack
      exact ⟨fun _ => onTrack.start_lt rfl nonempty, fun e => by cases e⟩

/-- At the start of `struct P ;` a type is refused behind the name; a structure has been refused
there after five steps, and has gone back. -/
theorem productions_honour_cursor_struct :
    let tokens : Array Token := #[⟨.keyword .kwStruct, "struct", 1⟩, ⟨.identifier, "P", 1⟩,
      ⟨.symbol .semicolon, ";", 1⟩]
    let s := (Parser.ofTokens tokens false).setting
    (∃ d, Run s ⟨.unit, 0⟩ (.become .typeSpec) {} (.finished false) d ∧ d.position = 2 ∧
      s.Honours .typeSpec 0 false 2) ∧
    ∃ t, s.Reaches t ∧ t.activation = ⟨.structDef, 0⟩ ∧ t.command = .finish false ∧
      t.cursor.backtracks = [⟨2, 0⟩] ∧ s.Honours .structDef 0 false t.cursor.position := by
  intro tokens s
  constructor
  · have refused : Run s ⟨.unit, 0⟩ (.become .typeSpec) {} (.finished false) _ :=
      .entered rfl (.missed (by decide) <| .missed (by decide) <| .missed (by decide) <|
        .taken rfl <| .taken rfl .finish) .finish
    obtain ⟨o, d, run, honours⟩ :=
      (productions_honour_cursor tokens false _ .start).1 .typeSpec rfl
    obtain ⟨rfl, rfl⟩ := refused.unique run
    exact ⟨_, refused, rfl, honours false rfl⟩
  · have reached := Setting.Reaches.start (s := s) |>.next rfl |>.next rfl |>.next rfl |>.next rfl
      |>.next rfl
    exact ⟨_, reached, rfl, rfl, rfl, (productions_honour_cursor tokens false _ reached).2 _ rfl rfl⟩

end AtomFrontEnd

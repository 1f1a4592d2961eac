import AtomFrontEnd.Proofs.Stall
import AtomFrontEnd.Proofs.Reachable

/-!
Moves back.

Every move back goes to where a production began, from farther on and from no farther than the
first end (`Setting.backward_recognize`). How many there are depends on the production. One that
refuses where none of its openers stands makes none (`Setting.idles`), a structure or
a function that is refused makes one at most (`Run.light_structDef`, `Run.light_funcDef`), and
so does an operand where a cast begins (`Run.light_unary_of_typed`).
-/

namespace AtomFrontEnd

variable {s : Setting} {t u : State} {a : Activation} {k hit miss : Command} {c d : Cursor}
  {o : Outcome} {p : Production}

/-! ## Back and never on -/

/-- Every move back has gone back, and from no farther than the first end. -/
def Cursor.Backward (s : Setting) (c : Cursor) : Prop :=
  ∀ m ∈ c.backtracks, m.target < m.source ∧ m.source ≤ s.tokens.firstEnd

theorem Cursor.Backward.rewind {start : Nat} (h : c.Backward s) (sound : c.Sound s)
    (le : start ≤ c.position) : (c.rewind start).Backward s := by
  unfold Cursor.rewind
  split
  · exact h
  · rename_i moved
    intro m mem
    rcases List.mem_cons.mp mem with rfl | mem
    · exact ⟨Nat.lt_of_le_of_ne le moved, sound.position_le⟩
    · exact h m mem

theorem State.Sound.backward (h : t.Sound s) (e : State.Moves s t u) (back : t.cursor.Backward s) :
    u.cursor.Backward s := by
  cases e with
  | returned =>
    intro m mem
    rw [Cursor.backtracks_record] at mem
    exact back m mem
  | taken =>
    intro m mem
    rw [Cursor.backtracks_advance] at mem
    exact back m mem
  | missed => exact back
  | recalled known =>
    intro m mem
    rw [Cursor.backtracks_of_lookup known] at mem
    exact back m mem
  | entered => exact back
  | rewound => exact back.rewind h.confined.toSound h.onTrack.start_le

theorem Setting.Reaches.backward (h : s.Reaches t) : t.cursor.Backward s := by
  induction h with
  | start =>
    intro m mem
    cases mem
  | next reached e ih => exact reached.sound.backward (State.step_eq_inl_iff.mp e) ih

theorem Setting.backward_recognize (s : Setting) : s.recognize.2.Backward s := by
  obtain ⟨t, reached, -, last⟩ := s.exists_last
  rw [← last]
  exact reached.backward

/-! ## Light refusals -/

theorem Run.rest_of_noneOf {kinds : List TokenKind} (other : s.tokens.kindAt c.position ∉ kinds)
    (h : Run s a (.oneOf kinds hit miss) c o d) :
    ∃ c', c'.position = c.position ∧ c'.backtracks = c.backtracks ∧ Run s a miss c' o d := by
  induction kinds generalizing c with
  | nil => exact ⟨c, rfl, rfl, h⟩
  | cons kind kinds ih =>
    rw [List.mem_cons, not_or] at other
    cases h with
    | taken stands _ => exact absurd stands other.1
    | missed _ rest => exact ih (c := c.miss) other.2 rest

/-- Where a cast begins, an expression in parentheses is given up after one move back. -/
theorem Run.light_primary_of_typed (hs : s.recalling = false)
    (opens : s.tokens.kindAt c.position = .symbol .leftParen)
    (type : s.tokens.kindAt (c.position + 1) ∈ TokenKind.typeOpeners true)
    (h : Run s ⟨.primary, c.position⟩ (rules s.structTypes .primary) c o d) :
    d.backtracks.length ≤ c.backtracks.length + 1 := by
  have next : ∀ c' : Cursor, (c'.advance (.symbol .leftParen)).position = c'.position + 1 :=
    Cursor.position_advance (by decide)
  have noName : s.tokens.kindAt c.position ≠ .identifier := by
    rw [opens]
    decide
  cases h with
  | taken stands _ => exact absurd stands noName
  | missed _ h =>
    have noLiteral : s.tokens.kindAt c.miss.position ∉
        [.literal .integer, .literal .real, .literal .character, .literal .string] := by
      rw [Cursor.position_miss, opens]
      decide
    obtain ⟨c₁, there, same, h⟩ := h.rest_of_noneOf noLiteral
    rw [Cursor.position_miss] at there
    rw [← there] at opens type
    cases h with
    | missed away _ => exact absurd opens away
    | taken _ h =>
      rw [← next] at type
      have idle := not_mem_expression_openers type
      rcases h.cases_of_call (by simp [hs]) with ⟨t, cause, rfl, body⟩ | ⟨answer, c₂, body, rest⟩
      · exact absurd (s.idles hs rfl idle _ _ _ rfl body).1 (by simp)
      · obtain ⟨e, -, unmoved⟩ := s.idles hs rfl idle _ _ _ rfl body
        obtain rfl := Outcome.finished.inj e
        rw [Cursor.backtracks_advance, same, Cursor.backtracks_miss] at unmoved
        cases rest with
        | rewound rest =>
          cases rest
          rw [← unmoved]
          exact Cursor.length_backtracks_rewind_le ..

theorem Run.light_unary_of_typed (hs : s.recalling = false)
    (opens : s.tokens.kindAt c.position = .symbol .leftParen)
    (type : s.tokens.kindAt (c.position + 1) ∈ TokenKind.typeOpeners true)
    (h : Run s ⟨.unary, c.position⟩ (rules s.structTypes .unary) c o d) :
    d.backtracks.length ≤ c.backtracks.length + 1 := by
  have noSign : s.tokens.kindAt c.position ∉ [.symbol .minus, .symbol .bang] := by
    rw [opens]
    decide
  obtain ⟨c₁, there, same, h⟩ := h.rest_of_noneOf noSign
  rw [← there] at opens type
  rw [← same]
  have refuses := yields_primary_refusal hs opens type c₁ rfl
  rcases (h.of_become hs).cases_of_call (by simp [hs]) with
    ⟨t, cause, rfl, body⟩ | ⟨answer, c₂, body, rest⟩
  · exact absurd (refuses _ _ body).1 (by simp)
  · obtain ⟨e, -⟩ := refuses _ _ body
    obtain rfl := Outcome.finished.inj e
    cases rest
    exact body.light_primary_of_typed hs opens type

/-- Whether the command neither calls anything nor goes back. -/
def Command.still : Command → Bool
  | finish _ => true
  | fail _ => true
  | token _ hit miss => hit.still && miss.still
  | call _ _ _ => false
  | rewind _ => false

theorem Run.of_still (h : Run s a k c o d) (hk : k.still = true) :
    d.backtracks = c.backtracks ∧ d.known = c.known := by
  induction h with
  | finish => exact ⟨rfl, rfl⟩
  | fail => exact ⟨rfl, rfl⟩
  | @taken a kind _ _ c _ _ _ _ ih =>
    simp only [Command.still, Bool.and_eq_true] at hk
    obtain ⟨backtracks, known⟩ := ih hk.1
    exact ⟨backtracks.trans (c.backtracks_advance kind), known.trans (c.known_advance kind)⟩
  | missed _ _ ih =>
    simp only [Command.still, Bool.and_eq_true] at hk
    exact ih hk.2
  | _ => cases hk

theorem Run.backtracks_typeSpec (h : Run s a (rules s.structTypes .typeSpec) c o d) :
    d.backtracks = c.backtracks :=
  (h.of_still rfl).1

theorem Run.light_structDef (h : Run s a (rules s.structTypes .structDef) c (.finished false) d) :
    d.backtracks.length ≤ c.backtracks.length + 1 := by
  cases h with
  | missed _ rest =>
    cases rest
    exact Nat.le_succ _
  | taken _ h =>
    cases h with
    | missed _ h => cases h
    | taken _ h =>
      cases h with
      | taken _ h => exact absurd rfl (h.ne_refused_of_persistent rfl)
      | missed _ h =>
        cases h with
        | rewound rest =>
          cases rest
          simpa using Cursor.length_backtracks_rewind_le a.start
            ((c.advance (.keyword .kwStruct)).advance MissingToken.structName.kind).miss

theorem Run.light_functionTail (h : Run s a functionTail c (.finished false) d) :
    d.backtracks.length ≤ c.backtracks.length + 1 := by
  cases h with
  | missed _ h =>
    cases h with
    | rewound rest =>
      cases rest
      exact Cursor.length_backtracks_rewind_le a.start c.miss
  | taken _ h =>
    cases h with
    | taken _ h => exact absurd rfl (h.ne_refused_of_persistent rfl)
    | missed _ h =>
      cases h with
      | rewound rest =>
        cases rest
        simpa using Cursor.length_backtracks_rewind_le a.start (c.advance .identifier).miss

theorem Run.strays_typeSpec {b : Bool} (h : Run s a (rules b .typeSpec) c (.finished false) d) :
    d.position = c.position ∨
      b = false ∧ d.position = c.position + 2 ∧ s.tokens.kindAt c.position = .keyword .kwStruct ∧
        s.tokens.kindAt (c.position + 1) = .identifier := by
  obtain ⟨notOpener, -⟩ := h.refused_typeSpec
  have notWord : s.tokens.kindAt c.position ∉ [.keyword .kwInt, .keyword .kwDouble, .keyword .kwChar] :=
    fun word => notOpener (List.mem_append_left _ word)
  obtain ⟨c₁, here, -, h⟩ := h.rest_of_noneOf notWord
  rw [← here]
  cases h with
  | missed _ h =>
    cases h
    exact .inl rfl
  | taken isStruct h =>
    have next : (c₁.advance (.keyword .kwStruct)).position = c₁.position + 1 :=
      Cursor.position_advance (by decide) c₁
    cases h with
    | missed _ h => cases h
    | taken isName h =>
      cases h
      rw [next] at isName
      rw [Cursor.position_advance (MissingToken.kind_ne_endOfInput _), next]
      exact .inr ⟨rfl, rfl, isStruct, isName⟩

/-- What refuses is at its start, or it is a type behind `struct` and a name, which make no type. -/
theorem Run.at_start_or_struct
    (h : Run s ⟨p, c.position⟩ (rules s.structTypes p) c (.finished false) d) (notUnit : p ≠ .unit) :
    d.position = c.position ∨
      p = .typeSpec ∧ s.structTypes = false ∧ d.position = c.position + 2 ∧
        s.tokens.kindAt c.position = .keyword .kwStruct ∧
        s.tokens.kindAt (c.position + 1) = .identifier := by
  cases strays : p.strays with
  | false => exact .inl (h.position_of_refused strays)
  | true =>
    obtain rfl : p = .typeSpec := by
      cases p with
      | typeSpec => rfl
      | unit => exact absurd rfl notUnit
      | _ => cases strays
    exact h.strays_typeSpec.imp_right fun behind => ⟨rfl, behind⟩

/-- A function goes back twice only where its type has not moved the first time. -/
theorem Run.light_funcDef
    (h : Run s ⟨.funcDef, c.position⟩ (rules s.structTypes .funcDef) c (.finished false) d) :
    d.backtracks.length ≤ c.backtracks.length + 1 := by
  rcases h.cases_of_call (fun _ => by decide) with ⟨t, cause, e, -⟩ | ⟨answer, c₁, type, h⟩
  · cases e
  have same := type.backtracks_typeSpec
  rw [← same]
  cases answer with
  | true => exact h.light_functionTail
  | false =>
    cases h with
    | rewound h =>
      have there := Cursor.position_rewind c.position c₁
      rcases type.strays_typeSpec with stays | ⟨-, -, isStruct, -⟩
      · -- the type has not moved, and what comes after it goes back once
        rw [Cursor.rewind_of_eq stays] at h there
        cases h with
        | taken _ h => simpa using h.light_functionTail
        | missed _ h =>
          cases h with
          | rewound rest =>
            cases rest
            exact Cursor.length_backtracks_rewind_le c.position c₁.miss
      · cases h with
        | taken isVoid _ =>
          rw [there, isStruct] at isVoid
          cases isVoid
        | missed _ h =>
          cases h with
          | rewound rest =>
            cases rest
            have stays : (c₁.rewind c.position).miss.rewind c.position = (c₁.rewind c.position).miss :=
              Cursor.rewind_of_eq there
            rw [stays]
            exact Cursor.length_backtracks_rewind_le c.position c₁

end AtomFrontEnd

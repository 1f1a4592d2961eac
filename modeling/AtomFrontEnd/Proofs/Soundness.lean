import AtomFrontEnd.Proofs.Execution
import AtomFrontEnd.Proofs.Slice

/-!
What a production spans is described by its form.

Along a run the kinds behind the cursor, from where the production began, are
those that its body has admitted so far (`Run.admits`). Only a production that
strays could upset this, for then the kinds that it refused are behind the
cursor, too; but whoever calls one goes back to the start when it is refused, or
gives up (`Command.tidy`).
-/

namespace AtomFrontEnd

namespace Command

/-- Whether it makes no difference to a match what is behind the command. -/
def rootless : Command → Bool
  | finish matched => !matched
  | fail _ => true
  | rewind _ => true
  | _ => false

/-- Whether nothing is made of what a refused production may have left behind. -/
def tidy : Command → Bool
  | finish _ => true
  | fail _ => true
  | token _ hit miss => hit.tidy && miss.tidy
  | call q hit miss => hit.tidy && miss.tidy && (!q.strays || miss.rootless)
  | rewind next => next.tidy

theorem Admits.of_rootless {b : Bool} {k : Command} {u v w : List TokenKind}
    (hk : k.rootless = true) (h : k.Admits b u w) : k.Admits b v w := by
  cases k with
  | finish matched =>
    obtain ⟨rfl, -⟩ := h
    cases hk
  | fail => exact h
  | rewind next => exact h
  | token kind hit miss => cases hk
  | call q hit miss => cases hk

end Command

theorem tidy_rules (structTypes : Bool) (p : Production) :
    (rules structTypes p).tidy = true := by
  cases structTypes <;> cases p with
  | binary l => cases l <;> rfl
  | moreOperands l => cases l <;> rfl
  | _ => rfl

/-! ## Steps and what a command admits -/

section

variable {s : Setting} {b : Bool} {hit miss next : Command} {kind : TokenKind} {q : Production}
  {c c' : Cursor} {start i j n : Nat} {u w : List TokenKind}

theorem Cursor.le_position_advance (kind : TokenKind) (le : start ≤ c.position) :
    start ≤ (c.advance kind).position := by
  by_cases isEnd : kind = .endOfInput
  · subst isEnd
    exact le
  · rw [Cursor.position_advance isEnd]
    omega

theorem Command.Admits.of_taken (here : s.tokens.kindAt c.position = kind)
    (le : start ≤ c.position)
    (h : hit.Admits b (s.tokens.slice start (c.advance kind).position) w) :
    (token kind hit miss).Admits b (s.tokens.slice start c.position) w := by
  refine .inl ?_
  by_cases isEnd : kind = .endOfInput
  · subst isEnd
    rw [if_pos rfl]
    exact h
  · rw [Cursor.position_advance isEnd, TokenSequence.slice_succ le, here] at h
    rw [if_neg isEnd]
    exact h

theorem Command.Admits.of_rewound
    (h : next.Admits b (s.tokens.slice start (c.rewind start).position) w) :
    (rewind next).Admits b u w := by
  rw [Cursor.position_rewind, TokenSequence.slice_self] at h
  exact h

theorem Command.Admits.of_matched (hij : i ≤ j) (hjn : j ≤ n)
    (hq : Derives b q.form (s.tokens.slice j n)) (h : hit.Admits b (s.tokens.slice i n) w) :
    (call q hit miss).Admits b (s.tokens.slice i j) w := by
  rw [← TokenSequence.slice_append hij hjn] at h
  exact .inl ⟨_, hq, h⟩

/-- A production that was refused plays no part in what is admitted. -/
theorem Command.Admits.of_refused (straying : q.strays = false ∨ miss.rootless = true)
    (body : Run s ⟨q, c.position⟩ (rules s.structTypes q) c (.finished false) c')
    (h : miss.Admits b (s.tokens.slice i c'.position) w) :
    (call q hit miss).Admits b (s.tokens.slice i c.position) w := by
  rcases straying with stays | rootless
  · rw [body.position_of_refused stays] at h
    exact .inr h
  · exact .inr (h.of_rootless rootless)

end

/-! ## Runs -/

variable {s : Setting} {a : Activation} {k : Command} {c d : Cursor} {o : Outcome}

/-- No run ends before its production began, and what it spans when it matches is
admitted by the command. -/
theorem Run.admits (hs : s.recalling = false) (h : Run s a k c o d) (hk : k.tidy = true)
    (le : a.start ≤ c.position) :
    a.start ≤ d.position ∧ (o = .finished true →
      k.Admits s.structTypes (s.tokens.slice a.start c.position)
        (s.tokens.slice a.start d.position)) := by
  induction h with
  | finish =>
    refine ⟨le, ?_⟩
    intro e
    exact ⟨Outcome.finished.inj e, rfl⟩
  | fail =>
    refine ⟨le, ?_⟩
    intro e
    cases e
  | taken here _ ih =>
    simp only [Command.tidy, Bool.and_eq_true] at hk
    obtain ⟨le', admits⟩ := ih hk.1 (Cursor.le_position_advance _ le)
    refine ⟨le', ?_⟩
    intro e
    exact (admits e).of_taken here le
  | missed _ _ ih =>
    simp only [Command.tidy, Bool.and_eq_true] at hk
    obtain ⟨le', admits⟩ := ih hk.2 le
    refine ⟨le', ?_⟩
    intro e
    exact .inr (admits e)
  | rewound _ ih =>
    obtain ⟨le', admits⟩ := ih hk (Nat.le_of_eq (Cursor.position_rewind ..).symm)
    refine ⟨le', ?_⟩
    intro e
    exact (admits e).of_rewound
  | recalled known _ _ => exact absurd known (by simp [Cursor.lookup_of_forgetful hs])
  | @entered a p hit miss c matched c' o d _ body _ ihBody ihRest =>
    simp only [Command.tidy, Bool.and_eq_true, Bool.or_eq_true, Bool.not_eq_true'] at hk
    obtain ⟨⟨tidyHit, tidyMiss⟩, straying⟩ := hk
    obtain ⟨bodyLe, spans⟩ := ihBody (tidy_rules _ _) (Nat.le_refl _)
    have le' := Nat.le_trans le bodyLe
    rw [Cursor.position_record] at ihRest
    cases matched with
    | true =>
      rw [TokenSequence.slice_self, admits_rules_iff] at spans
      obtain ⟨le'', admits⟩ := ihRest tidyHit le'
      refine ⟨le'', ?_⟩
      intro e
      exact (admits e).of_matched le bodyLe (spans rfl)
    | false =>
      obtain ⟨le'', admits⟩ := ihRest tidyMiss le'
      refine ⟨le'', ?_⟩
      intro e
      exact (admits e).of_refused straying body
  | aborted _ _ ihBody =>
    obtain ⟨bodyLe, -⟩ := ihBody (tidy_rules _ _) (Nat.le_refl _)
    refine ⟨Nat.le_trans le bodyLe, ?_⟩
    intro e
    cases e

theorem Run.start_le {p : Production} (hs : s.recalling = false)
    (h : Run s ⟨p, c.position⟩ (rules s.structTypes p) c o d) : c.position ≤ d.position :=
  (h.admits hs (tidy_rules _ _) (Nat.le_refl _)).1

theorem Run.derives {p : Production} (hs : s.recalling = false)
    (h : Run s ⟨p, c.position⟩ (rules s.structTypes p) c (.finished true) d) :
    Derives s.structTypes p.form (s.tokens.slice c.position d.position) := by
  obtain ⟨-, admits⟩ := h.admits hs (tidy_rules _ _) (Nat.le_refl _)
  rw [TokenSequence.slice_self, admits_rules_iff] at admits
  exact admits rfl

theorem Run.start_lt {p : Production} (hs : s.recalling = false)
    (h : Run s ⟨p, c.position⟩ (rules s.structTypes p) c (.finished true) d)
    (nonempty : p.form.nullable = false) : c.position < d.position := by
  obtain ⟨kind, rest, e, -⟩ := (h.derives hs).exists_opener nonempty
  have length := congrArg List.length e
  simp only [TokenSequence.length_slice, List.length_cons] at length
  omega

theorem Run.sound {p : Production} (h : Run s ⟨p, c.position⟩ (rules s.structTypes p) c o d)
    (sound : c.Sound s) :
    d.Sound s ∧ (o = .finished true → p.nullable = false → c.position < d.position) := by
  obtain ⟨o', d', run, sound', -, far⟩ := exists_run s p c sound
  obtain ⟨rfl, rfl⟩ := h.unique run
  exact ⟨sound', far⟩

end AtomFrontEnd

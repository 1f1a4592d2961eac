import AtomFrontEnd.Recognizer.Run

/-!
Every production comes to an outcome, from every cursor that can arise.

A production that calls another where it has itself begun calls one of lower
rank; any other call begins further on. `Command.grounded` checks this of a
body, and with it that a production takes a token before it matches, unless it
is one of the few that may match nothing. All bodies pass (`grounded_rules`), so a
production begins on track, and what comes next in it stays so (`Command.OnTrack`).
Between the position and the first end token there are only so many tokens, so
`exists_run` follows by induction on their number and the rank.
-/

namespace AtomFrontEnd

namespace Production

/-- Whether the production may match without taking a token. -/
def nullable : Production → Bool
  | unit => true
  | moreOperands _ => true
  | suffixes => true
  | _ => false

/-- A production that begins with another, at the same place, ranks above it. -/
def rank : Production → Nat
  | structDef | typeSpec | arrayMark | block | primary => 0
  | moreParams | moreOperands _ | suffixes | moreArguments => 0
  | varDef | param | funcDef | moreVars | suffixed => 1
  | fields | unary => 2
  | cast => 3
  | binary .product => 4
  | binary .sum => 5
  | binary .relation => 6
  | binary .equality => 7
  | binary .conjunction => 8
  | binary .disjunction => 9
  | expression => 10
  | statement => 11
  | blockItems => 12
  | unit => 13

theorem rank_lt (p : Production) : p.rank < 14 := by
  cases p with
  | binary l => cases l <;> decide
  | moreOperands l => cases l <;> decide
  | _ => decide

end Production

/-- Whether the command, in a body of `p`, calls only what ranks lower or
begins further on, and matches only after a token was taken; `moved` says that
one has been taken already. -/
def Command.grounded (p : Production) : Bool → Command → Bool
  | moved, finish matched => !matched || moved || p.nullable
  | _, fail _ => true
  | moved, token kind hit miss =>
    grounded p (moved || kind != .endOfInput) hit && grounded p moved miss
  | moved, call q hit miss =>
    (moved || decide (q.rank < p.rank)) && grounded p (moved || !q.nullable) hit &&
      grounded p moved miss
  | _, rewind next => grounded p false next

theorem grounded_rules (structTypes : Bool) (p : Production) :
    (rules structTypes p).grounded p false = true := by
  cases structTypes <;> cases p with
  | binary l => cases l <;> decide
  | moreOperands l => cases l <;> decide
  | _ => decide

/-! ## Cursors that can arise -/

/-- The cursor has not passed the first end token, and what it knows of a match
is that it ends later than it starts and no later than that token. -/
structure Cursor.Sound (s : Setting) (c : Cursor) : Prop where
  position_le : c.position ≤ s.tokens.firstEnd
  known_lt : ∀ {start stop : Nat}, c.known[start]? = some (some stop) →
    start < stop ∧ stop ≤ s.tokens.firstEnd

namespace Cursor.Sound

variable {s : Setting} {c : Cursor}

theorem initial (s : Setting) : Cursor.Sound s {} :=
  ⟨Nat.zero_le _, fun h => by simp at h⟩

theorem advance {kind : TokenKind} (h : c.Sound s) (here : s.tokens.kindAt c.position = kind) :
    (c.advance kind).Sound s := by
  refine ⟨?_, fun e => h.known_lt (by simpa using e)⟩
  by_cases hk : kind = .endOfInput
  · subst hk
    exact h.position_le
  · rw [position_advance hk]
    refine Nat.lt_of_le_of_ne h.position_le fun e => hk ?_
    rw [← here, e, s.tokens.kindAt_firstEnd]

theorem miss (h : c.Sound s) : c.miss.Sound s := ⟨h.position_le, h.known_lt⟩

theorem rewind {start : Nat} (h : c.Sound s) (le : start ≤ c.position) : (c.rewind start).Sound s := by
  refine ⟨?_, fun e => h.known_lt (by simpa using e)⟩
  rw [position_rewind]
  exact Nat.le_trans le h.position_le

theorem lookup {p : Production} {matched : Bool} {c' : Cursor} (h : c.Sound s)
    (known : c.lookup s p = some (matched, c')) :
    c'.Sound s ∧ c.position ≤ c'.position ∧ (matched = true → c.position < c'.position) ∧
      p = .unary := by
  unfold Cursor.lookup at known
  split at known
  · rename_i cond
    split at known
    · cases known
    · cases known
      exact ⟨h, Nat.le_refl _, (fun e => by cases e), cond.2⟩
    · rename_i stop e
      cases known
      obtain ⟨lt, le⟩ := h.known_lt e
      exact ⟨⟨le, h.known_lt⟩, Nat.le_of_lt lt, fun _ => lt, cond.2⟩
  · cases known

theorem record {a : Activation} {matched : Bool} (h : c.Sound s)
    (lt : matched = true → a.production = .unary → a.start < c.position) :
    (c.record s a matched).Sound s := by
  unfold Cursor.record
  split
  · rename_i cond
    refine ⟨h.position_le, fun {start stop} e => ?_⟩
    simp only [Std.TreeMap.getElem?_insert] at e
    split at e
    · rename_i same
      rw [Nat.compare_eq_eq] at same
      subst same
      cases matched with
      | false => cases e
      | true =>
        obtain rfl := Option.some.inj (Option.some.inj e)
        exact ⟨lt rfl cond.2, h.position_le⟩
    · exact h.known_lt e
  · exact h

end Cursor.Sound

/-! ## Commands on their way -/

/-- The rest of an activation's body keeps to what `grounded` checks, with the cursor
at the position. -/
def Command.OnTrack (k : Command) (a : Activation) (position : Nat) : Prop :=
  ∃ moved, k.grounded a.production moved = true ∧ a.start ≤ position ∧
    (moved = true → a.start < position)

namespace Command.OnTrack

variable {a : Activation} {hit miss next : Command} {p : Production} {i j : Nat}

theorem rules (structTypes : Bool) (p : Production) (i : Nat) :
    (rules structTypes p).OnTrack ⟨p, i⟩ i :=
  ⟨false, grounded_rules structTypes p, Nat.le_refl i, fun h => by cases h⟩

theorem start_le {k : Command} (h : k.OnTrack a i) : a.start ≤ i := by
  obtain ⟨_, _, le, _⟩ := h
  exact le

theorem start_lt {matched : Bool} (h : (finish matched).OnTrack a i) (hit : matched = true)
    (nonempty : a.production.nullable = false) : a.start < i := by
  obtain ⟨moved, g, _, far⟩ := h
  exact far (by simpa [grounded, hit, nonempty] using g)

theorem taken {kind : TokenKind} {c : Cursor} (h : (token kind hit miss).OnTrack a c.position) :
    hit.OnTrack a (c.advance kind).position := by
  obtain ⟨moved, g, le, far⟩ := h
  simp only [grounded, Bool.and_eq_true] at g
  by_cases isEnd : kind = .endOfInput
  · subst isEnd
    rw [bne_self_eq_false, Bool.or_false] at g
    exact ⟨moved, g.1, le, far⟩
  · rw [Cursor.position_advance isEnd]
    exact ⟨_, g.1, Nat.le_succ_of_le le, fun _ => Nat.lt_succ_of_le le⟩

theorem missed {kind : TokenKind} (h : (token kind hit miss).OnTrack a i) : miss.OnTrack a i := by
  obtain ⟨moved, g, le, far⟩ := h
  simp only [grounded, Bool.and_eq_true] at g
  exact ⟨moved, g.2, le, far⟩

theorem rewound (h : (rewind next).OnTrack a i) : next.OnTrack a a.start := by
  obtain ⟨_, g, _, _⟩ := h
  exact ⟨false, g, Nat.le_refl _, fun h => by cases h⟩

/-- What is called begins further on than its caller, or ranks lower. -/
theorem lower (h : (call p hit miss).OnTrack a i) :
    a.start < i ∨ p.rank < a.production.rank := by
  obtain ⟨moved, g, _, far⟩ := h
  simp only [grounded, Bool.and_eq_true, Bool.or_eq_true, decide_eq_true_eq] at g
  exact g.1.1.imp_left far

/-- Whichever way the call ends, the caller goes on on track. -/
theorem resumed (h : (call p hit miss).OnTrack a i) {matched : Bool} (le : i ≤ j)
    (far : matched = true → p.nullable = false → i < j) : (choose matched hit miss).OnTrack a j := by
  obtain ⟨moved, g, le', far'⟩ := h
  simp only [grounded, Bool.and_eq_true] at g
  cases matched with
  | false => exact ⟨moved, g.2, Nat.le_trans le' le, fun h => Nat.lt_of_lt_of_le (far' h) le⟩
  | true =>
    refine ⟨_, g.1.2, Nat.le_trans le' le, fun h => ?_⟩
    simp only [Bool.or_eq_true, Bool.not_eq_true'] at h
    rcases h with h | h
    · exact Nat.lt_of_lt_of_le (far' h) le
    · exact Nat.lt_of_le_of_lt le' (far rfl h)

end Command.OnTrack

/-! ## Runs exist -/

/-- From the cursor the command has a run, and it ends with a sound cursor at or
after the start, or after it if a production that may not be empty matched. -/
def Command.Returns (s : Setting) (a : Activation) (k : Command) (c : Cursor) : Prop :=
  ∃ o d, Run s a k c o d ∧ d.Sound s ∧ a.start ≤ d.position ∧
    (o = .finished true → a.production.nullable = false → a.start < d.position)

/-- How much is left to do for a production begun at a position. -/
def Setting.work (s : Setting) (a : Activation) : Nat :=
  14 * (s.tokens.firstEnd - a.start) + a.production.rank

theorem Setting.work_lt {s : Setting} {a : Activation} {p : Production} {i : Nat}
    (bound : i ≤ s.tokens.firstEnd) (le : a.start ≤ i)
    (lower : a.start < i ∨ p.rank < a.production.rank) : s.work ⟨p, i⟩ < s.work a := by
  have := p.rank_lt
  simp only [Setting.work]
  omega

theorem Command.returns_of_onTrack {s : Setting} {a : Activation}
    (ih : ∀ b : Activation, s.work b < s.work a → ∀ c : Cursor, c.Sound s → c.position = b.start →
      (rules s.structTypes b.production).Returns s b c)
    (k : Command) : ∀ c : Cursor, k.OnTrack a c.position → c.Sound s → k.Returns s a c := by
  induction k with
  | finish matched =>
    intro c h sound
    refine ⟨_, _, .finish, sound, h.start_le, fun e nonempty => h.start_lt ?_ nonempty⟩
    exact Outcome.finished.inj e
  | fail cause =>
    intro c h sound
    exact ⟨_, _, .fail, sound, h.start_le, fun e => by cases e⟩
  | token kind hit miss ihHit ihMiss =>
    intro c h sound
    by_cases here : s.tokens.kindAt c.position = kind
    · obtain ⟨o, d, run, rest⟩ := ihHit _ h.taken (sound.advance here)
      exact ⟨o, d, .taken here run, rest⟩
    · obtain ⟨o, d, run, rest⟩ := ihMiss c.miss h.missed sound.miss
      exact ⟨o, d, .missed here run, rest⟩
  | rewind next ihNext =>
    intro c h sound
    have back : (c.rewind a.start).position = a.start := Cursor.position_rewind ..
    obtain ⟨o, d, run, rest⟩ := ihNext _ (back.symm ▸ h.rewound) (sound.rewind h.start_le)
    exact ⟨o, d, .rewound run, rest⟩
  | call p hit miss ihHit ihMiss =>
    intro c h sound
    have resume : ∀ (matched : Bool) (c' : Cursor), c'.Sound s → c.position ≤ c'.position →
        (matched = true → p.nullable = false → c.position < c'.position) →
        (Command.choose matched hit miss).Returns s a c' := by
      intro matched c' sound' le far
      have onTrack := h.resumed le far
      cases matched with
      | true => exact ihHit _ onTrack sound'
      | false => exact ihMiss _ onTrack sound'
    cases known : c.lookup s p with
    | some result =>
      obtain ⟨matched, c'⟩ := result
      obtain ⟨sound', le, far, _⟩ := sound.lookup known
      obtain ⟨o, d, run, rest⟩ := resume matched c' sound' le fun h _ => far h
      exact ⟨o, d, .recalled known run, rest⟩
    | none =>
      have less := Setting.work_lt sound.position_le h.start_le h.lower
      obtain ⟨o, c', run, sound', le, far⟩ := ih _ less c sound rfl
      cases o with
      | failed token cause =>
        exact ⟨_, _, .aborted known run, sound', Nat.le_trans h.start_le le, fun e => by cases e⟩
      | finished matched =>
        have sound'' : (c'.record s ⟨p, c.position⟩ matched).Sound s := by
          refine sound'.record fun h hp => ?_
          simp only at hp
          subst h hp
          exact far rfl rfl
        obtain ⟨o, d, runRest, rest⟩ := resume matched (c'.record s ⟨p, c.position⟩ matched) sound''
          (by simpa using le) (fun h nonempty => by
            obtain rfl := h
            simpa using far rfl nonempty)
        exact ⟨o, d, .entered known run runRest, rest⟩

/-- Every production, called at a sound cursor, comes to an outcome. -/
theorem exists_run (s : Setting) (p : Production) (c : Cursor) (sound : c.Sound s) :
    (rules s.structTypes p).Returns s ⟨p, c.position⟩ c := by
  suffices all : ∀ (n : Nat) (a : Activation), s.work a = n → ∀ c : Cursor, c.Sound s →
      c.position = a.start → (rules s.structTypes a.production).Returns s a c from
    all _ ⟨p, c.position⟩ rfl c sound rfl
  intro n
  induction n using Nat.strongRecOn with
  | _ n ih =>
    intro a e c sound here
    refine Command.returns_of_onTrack (fun b less => ih _ (e ▸ less) b rfl) _ c ?_ sound
    rw [here]
    exact .rules ..

end AtomFrontEnd

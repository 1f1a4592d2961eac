import AtomFrontEnd.Proofs.Completion
import AtomFrontEnd.Proofs.Maximality
import AtomFrontEnd.Proofs.Rest
import AtomFrontEnd.Proofs.Termination

/-!
What a parse remembers of operands.

The activations that are at work or wait have smaller and smaller extents, so no two are alike,
and an operand is looked up before it is entered. So while it is read its start is not known
(`State.Fresh`), and what is recorded of it in the end is recorded for the first time: along a
parse no start is recorded twice, the starts that are known are those that have been recorded
(`Setting.Traces.recorded`), and what is known of them stays (`Setting.Traces.persists`).

What is known of a start is true, and so it is what the grammar says of the tokens there: a match
is the longest operand that begins at the start, since operands are read as far as they go, and
where there was no match there is no operand (`memory_holds_longest_operands`).
-/

namespace AtomFrontEnd

variable {s : Setting} {t u : State} {before : List State} {c : Cursor} {p : Production}
  {matched : Bool} {start stop : Nat}

/-! ## Steps and what is known -/

/-- The start of the operand of which the next step records how it went. -/
def State.recorded? (s : Setting) : State → Option Nat
  | ⟨a, .finish _, _, _ :: _⟩ =>
    if s.recalling = true ∧ a.production = .unary then some a.start else none
  | _ => none

theorem State.of_recorded? (h : t.recorded? s = some start) :
    (s.recalling = true ∧ t.activation.production = .unary) ∧ t.activation.start = start := by
  unfold recorded? at h
  split at h
  · split at h
    · exact ⟨‹_›, Option.some.inj h⟩
    · cases h
  · cases h

theorem State.Moves.known_eq (h : State.Moves s t u) :
    t.recorded? s = none ∧ u.cursor.known = t.cursor.known ∨
      ∃ start result, t.recorded? s = some start ∧
        u.cursor.known = t.cursor.known.insert start result := by
  cases h with
  | @returned a matched c call pending =>
    by_cases isUnary : s.recalling = true ∧ a.production = .unary
    · refine .inr ⟨a.start, if matched then some c.position else none, if_pos isUnary, ?_⟩
      rw [Cursor.record, if_pos isUnary]
    · refine .inl ⟨if_neg isUnary, ?_⟩
      rw [Cursor.record, if_neg isUnary]
  | taken => exact .inl ⟨rfl, Cursor.known_advance ..⟩
  | missed => exact .inl ⟨rfl, rfl⟩
  | recalled known => exact .inl ⟨rfl, Cursor.known_of_lookup known⟩
  | entered => exact .inl ⟨rfl, rfl⟩
  | rewound => exact .inl ⟨rfl, Cursor.known_rewind ..⟩

theorem State.Moves.mem_known_iff (h : State.Moves s t u) :
    start ∈ u.cursor.known ↔ t.recorded? s = some start ∨ start ∈ t.cursor.known := by
  rcases h.known_eq with ⟨none, same⟩ | ⟨_, _, some, inserted⟩
  · simp [none, same]
  · simp [some, inserted, Std.TreeMap.mem_insert]

theorem Cursor.not_mem_known_of_lookup (unknown : c.lookup s p = none)
    (remembered : s.recalling = true ∧ p = .unary) : c.position ∉ c.known := by
  unfold Cursor.lookup at unknown
  rw [if_pos remembered] at unknown
  split at unknown
  · exact (getElem?_eq_none_iff _ _).mp ‹_›
  · cases unknown
  · cases unknown

/-! ## Nothing is recorded twice -/

/-- The activations that are at work or wait, the innermost first. -/
def State.activations (t : State) : List Activation :=
  t.activation :: t.pending.map Pending.caller

/-- Each activation has a smaller extent than those that wait for it, and nothing is known of an
operand that is still being read. -/
structure State.Fresh (s : Setting) (t : State) : Prop where
  nested : t.activations.Pairwise fun a b => s.extent a < s.extent b
  unknown : ∀ a ∈ t.activations, s.recalling = true ∧ a.production = .unary →
    a.start ∉ t.cursor.known

theorem State.Fresh.initial (s : Setting) : State.Fresh s (.call s .unit {}) := by
  refine ⟨List.pairwise_singleton .., fun a _ _ known => ?_⟩
  simp [State.call] at known

/-- Nothing changes for activations that go on, as long as nothing is recorded. -/
theorem State.Fresh.same (h : t.Fresh s) (activations : u.activations = t.activations)
    (known : u.cursor.known = t.cursor.known) : u.Fresh s := by
  refine ⟨?_, ?_⟩
  · rw [activations]
    exact h.nested
  · rw [activations, known]
    exact h.unknown

theorem State.Fresh.move (h : t.Fresh s) (sound : t.Sound s) (e : State.Moves s t u) :
    u.Fresh s := by
  have memory : ∀ i, i ∈ u.cursor.known ↔ t.recorded? s = some i ∨ i ∈ t.cursor.known :=
    fun _ => e.mem_known_iff
  cases e with
  | @returned a matched c call pending =>
    obtain ⟨outer, nested⟩ := List.pairwise_cons.mp h.nested
    refine ⟨nested, fun b mem isUnary known => ?_⟩
    rcases (memory b.start).mp known with recorded | known
    · -- an operand that waits begins where the one that is over has begun, and has its extent
      obtain ⟨⟨-, isUnary'⟩, same⟩ := State.of_recorded? recorded
      have equal : s.extent a = s.extent b := by
        rw [Setting.extent, Setting.extent, isUnary', isUnary.2, same]
      exact absurd (outer b mem) (by rw [equal]; exact lt_irrefl _)
    · exact h.unknown b (List.mem_cons_of_mem _ mem) isUnary known
  | entered unknown =>
    have less := sound.extent_lt rfl
    have outer := (List.pairwise_cons.mp h.nested).1
    refine ⟨List.pairwise_cons.mpr ⟨fun b mem => ?_, h.nested⟩, fun b mem isUnary => ?_⟩
    · rcases List.mem_cons.mp mem with rfl | mem
      · exact less
      · exact less.trans (outer b mem)
    · rcases List.mem_cons.mp mem with rfl | mem
      · exact Cursor.not_mem_known_of_lookup unknown isUnary
      · exact h.unknown b mem isUnary
  | taken => exact h.same rfl (Cursor.known_advance ..)
  | missed => exact h.same rfl rfl
  | recalled known => exact h.same rfl (Cursor.known_of_lookup known)
  | rewound => exact h.same rfl (Cursor.known_rewind ..)

theorem Setting.Reaches.fresh (h : s.Reaches t) : t.Fresh s := by
  induction h with
  | start => exact .initial s
  | next reached e ih => exact ih.move reached.sound (State.step_eq_inl_iff.mp e)

/-- On the way to a state no start is recorded twice, and what is known there are the starts that
have been recorded. -/
theorem Setting.Traces.recorded (h : s.Traces before t) :
    (before.filterMap (State.recorded? s)).Nodup ∧
      ∀ start, start ∈ t.cursor.known ↔ start ∈ before.filterMap (State.recorded? s) := by
  induction h with
  | start => simp [State.call]
  | @next before t u traces e ih =>
    obtain ⟨nodup, known⟩ := ih
    have memory : ∀ i, i ∈ u.cursor.known ↔ t.recorded? s = some i ∨ i ∈ t.cursor.known :=
      fun _ => (State.step_eq_inl_iff.mp e).mem_known_iff
    cases recorded : t.recorded? s with
    | none =>
      rw [List.filterMap_cons_none recorded]
      refine ⟨nodup, fun start => ?_⟩
      rw [memory, recorded, ← known]
      simp
    | some first =>
      obtain ⟨isUnary, rfl⟩ := State.of_recorded? recorded
      have new := traces.reaches.fresh.unknown _ List.mem_cons_self isUnary
      rw [List.filterMap_cons_some recorded]
      refine ⟨List.nodup_cons.mpr ⟨fun mem => new ((known _).mpr mem), nodup⟩, fun start => ?_⟩
      rw [memory, recorded, List.mem_cons, ← known, Option.some.injEq, eq_comm]

theorem Cursor.mem_known {result : Option Nat} (known : c.known[start]? = some result) :
    start ∈ c.known := by
  rw [Std.TreeMap.mem_iff_isSome_getElem?, known]
  rfl

theorem State.Fresh.persists (h : t.Fresh s) (e : State.Moves s t u) {result : Option Nat}
    (known : t.cursor.known[start]? = some result) : u.cursor.known[start]? = some result := by
  rcases e.known_eq with ⟨-, same⟩ | ⟨_, _, recorded, inserted⟩
  · rw [same, known]
  · obtain ⟨isUnary, rfl⟩ := State.of_recorded? recorded
    have new := h.unknown _ List.mem_cons_self isUnary
    rw [inserted, Std.TreeMap.getElem?_insert]
    split
    · rename_i here
      rw [Nat.compare_eq_eq] at here
      exact absurd (Cursor.mem_known known) (here ▸ new)
    · exact known

theorem Setting.Traces.persists (h : s.Traces before u) :
    ∀ t ∈ before, ∀ (start : Nat) (result : Option Nat),
      t.cursor.known[start]? = some result → u.cursor.known[start]? = some result := by
  induction h with
  | start => simp
  | next traces e ih =>
    have fresh := traces.reaches.fresh
    intro v mem start result known
    rcases List.mem_cons.mp mem with rfl | mem
    · exact fresh.persists (State.step_eq_inl_iff.mp e) known
    · exact fresh.persists (State.step_eq_inl_iff.mp e) (ih v mem start result known)

/-! ## What is known is right -/

theorem Setting.Reaches.start_le_of_known (h : s.Reaches t) (known : start ∈ t.cursor.known) :
    start ≤ s.tokens.firstEnd := by
  induction h with
  | start => simp [State.call] at known
  | next reached e ih =>
    rcases (State.step_eq_inl_iff.mp e).mem_known_iff.mp known with recorded | known
    · obtain ⟨-, rfl⟩ := State.of_recorded? recorded
      exact Nat.le_trans reached.sound.onTrack.start_le reached.sound.confined.position_le
    · exact ih known

theorem Setting.Yields.exists_run (h : s.Yields p start matched stop)
    (inside : start ≤ s.tokens.firstEnd) :
    ∃ b d : Cursor, b.position = start ∧ d.position = stop ∧
      Run s ⟨p, b.position⟩ (rules s.structTypes p) b (.finished matched) d := by
  let b : Cursor := { position := start }
  have sound : b.Sound s := ⟨inside, fun known => by simp [b] at known⟩
  obtain ⟨o, d, run, -⟩ := AtomFrontEnd.exists_run s p b sound
  obtain ⟨rfl, there⟩ := h b rfl _ _ run
  exact ⟨b, d, rfl, there, run⟩

theorem Setting.Reaches.exists_run_of_known (h : s.Reaches t) {result : Option Nat}
    (known : t.cursor.known[start]? = some result) :
    ∃ b d : Cursor, b.position = start ∧ d.position = result.getD start ∧
      Run s.forgetful ⟨.unary, b.position⟩ (rules s.structTypes .unary) b
        (.finished result.isSome) d :=
  (h.truthful _ _ known).exists_run (h.start_le_of_known (Cursor.mem_known known))

theorem Setting.Reaches.derives_of_known (h : s.Reaches t)
    (known : t.cursor.known[start]? = some (some stop)) :
    Derives s.structTypes (.phrase .unary) (s.tokens.slice start stop) := by
  obtain ⟨b, d, rfl, rfl, run⟩ := h.exists_run_of_known known
  exact run.derives (s := s.forgetful) rfl

/-- Where something is known, no operand goes farther than what is known to match. -/
theorem Setting.Reaches.known_covers (h : s.Reaches t) {result : Option Nat}
    (known : t.cursor.known[start]? = some result)
    (operand : Derives s.structTypes (.phrase .unary) (s.tokens.slice start stop)) :
    result.isSome = true ∧ stop ≤ result.getD start := by
  obtain ⟨b, d, rfl, there, run⟩ := h.exists_run_of_known known
  have shown := s.tokens.shows_slice b.position stop
  have covers := Setting.covers (s := s.forgetful) (p := .unary) rfl rfl operand shown
  obtain ⟨found, far⟩ := covers b _ d rfl run
  rw [TokenSequence.length_slice, there] at far
  exact ⟨found, by omega⟩

/-- In every state of a parse: no start of an operand has been recorded twice on the way there,
those that have been recorded are those of which something is known, and what was known of them
before has not changed. Where a match is known its kinds are an operand of the grammar, and no
longer stretch from its start is one; where it is known that there was none, no stretch from there
is an operand. -/
theorem memory_holds_longest_operands (tokens : Array Token) (structTypes : Bool)
    (before : List State) (t : State)
    (traces : (Parser.ofTokens tokens structTypes).setting.Traces before t) :
    let completed := TokenSequence.ofArray tokens
    let recorded := before.filterMap (State.recorded? (Parser.ofTokens tokens structTypes).setting)
    (recorded.Nodup ∧ (∀ start, start ∈ t.cursor.known ↔ start ∈ recorded) ∧
      ∀ v ∈ before, ∀ (start : Nat) (result : Option Nat), v.cursor.known[start]? = some result →
        t.cursor.known[start]? = some result) ∧
    (∀ start stop, t.cursor.known[start]? = some (some stop) →
      Derives structTypes (.phrase .unary) (completed.slice start stop) ∧
      ∀ stop', Derives structTypes (.phrase .unary) (completed.slice start stop') → stop' ≤ stop) ∧
    ∀ start, t.cursor.known[start]? = some none →
      ∀ stop, ¬ Derives structTypes (.phrase .unary) (completed.slice start stop) := by
  intro completed recorded
  obtain ⟨nodup, known⟩ := traces.recorded
  have reached := traces.reaches
  refine ⟨⟨nodup, known, traces.persists⟩, fun start stop found => ⟨?_, fun stop' operand => ?_⟩,
    fun start notFound stop operand => ?_⟩
  · exact reached.derives_of_known found
  · exact (reached.known_covers found operand).2
  · obtain ⟨found, -⟩ := reached.known_covers notFound operand
    cases found

/-- At the end of a parse that has read a name and `=` and then half a cast: the name is an operand,
and none begins at the parenthesis of the cast. -/
theorem memory_holds_longest_operands_unfinished_cast :
    let tokens : Array Token := #[⟨.keyword .kwVoid, "void", 1⟩, ⟨.identifier, "f", 1⟩,
      ⟨.symbol .leftParen, "(", 1⟩, ⟨.symbol .rightParen, ")", 1⟩, ⟨.symbol .leftBrace, "\x7b", 1⟩,
      ⟨.identifier, "x", 2⟩, ⟨.symbol .assign, "=", 2⟩, ⟨.symbol .leftParen, "(", 2⟩,
      ⟨.keyword .kwInt, "int", 2⟩]
    let s := (Parser.ofTokens tokens false).setting
    ∃ before t, s.Traces before t ∧ (before.filterMap (State.recorded? s)).Nodup ∧
      t.cursor.known[5]? = some (some 6) ∧
      Derives false (.phrase .unary) ((TokenSequence.ofArray tokens).slice 5 6) ∧
      t.cursor.known[7]? = some none ∧
      ∀ stop, ¬ Derives false (.phrase .unary) ((TokenSequence.ofArray tokens).slice 7 stop) := by
  intro tokens s
  have rest : s.recognize =
      (.failed (.endAt 2) (.token .castClose),
        { position := 9, farthestMiss := 9,
          known := ((Std.TreeMap.empty.insert 5 (some 6)).insert 8 none).insert 7 none,
          backtracks := [⟨8, 7⟩] }) := by cbv
  obtain ⟨t, reached, -, last⟩ := s.exists_last
  rw [rest] at last
  obtain ⟨before, traces⟩ := reached.exists_traces
  obtain ⟨⟨nodup, -, -⟩, found, notFound⟩ :=
    memory_holds_longest_operands tokens false before t traces
  have name : t.cursor.known[5]? = some (some 6) := by
    rw [last]
    simp [Std.TreeMap.getElem_insert]
  have cast : t.cursor.known[7]? = some none := by
    rw [last]
    exact Std.TreeMap.getElem?_insert_self
  exact ⟨before, t, traces, nodup, name, (found 5 6 name).1, cast, notFound 7 cast⟩

end AtomFrontEnd

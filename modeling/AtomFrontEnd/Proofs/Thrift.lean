import AtomFrontEnd.Proofs.Operators
import AtomFrontEnd.Proofs.Retreat

/-!
Moves back are paid for with tokens.

Two moves back are allowed for each token that is taken (`Setting.budget`), and each production
keeps to this in its own way (`Setting.Thrifty`). What matches has paid for the moves on its way
with the tokens it has taken, and some productions leave something over for those who have called
them. What fails or refuses has given its tokens back or will not read on, so it is allowed what
the tokens ahead would pay for; one that has refused at such a price is followed by nothing that
would go back again, since what stands there opens it and nothing else.

`Command.thrifty` checks a body for this, step by step: what the body has left over at least, what
stood at its start, and whether it has gone back at a price (`Command.wanes`). A body that passes is
thrifty if what it calls is (`Setting.Saves.thrifty`), and most do (`thrifty_rules`).
-/

namespace AtomFrontEnd

variable {s : Setting} {a : Activation} {k hit miss : Command} {b c c' c₀ d : Cursor} {o : Outcome}
  {p q : Production} {answer : Bool}

/-! ## Budgets -/

namespace Production

/-- Moves back that are left over when the production has matched. -/
def saving : Production → Nat
  | varDef | funcDef | typeSpec | unary | suffixed | primary => 2
  | _ => 0

/-- Moves back that are left over when the production has refused or failed. -/
def margin : Production → Nat
  | unary | suffixed | primary => 1
  | _ => 0

/-- Whether the production may have gone back when it refuses. -/
def lavish : Production → Bool
  | structDef | varDef | funcDef | param | statement | expression | binary _ | cast => true
  | unary | suffixed | primary => true
  | _ => false

end Production

/-- The moves back that were made, and two for each token ahead, up to the first end. -/
def Setting.budget (s : Setting) (c : Cursor) : Nat :=
  c.backtracks.length + 2 * (s.tokens.firstEnd - c.position)

/-- From one cursor to another, a production has not gone back more often than the tokens pay for:
those that it has taken if it has matched, and else those ahead. -/
structure Setting.Thrifty (s : Setting) (p : Production) (c : Cursor) (o : Outcome) (d : Cursor) :
    Prop where
  matched : o = .finished true → s.budget d + p.saving ≤ s.budget c
  /-- It may have gone back only where one of its openers stands. -/
  refused : o = .finished false → d.backtracks.length ≤ c.backtracks.length ∨
    p.lavish = true ∧ s.tokens.kindAt c.position ∈ p.form.openers true ∧
      d.backtracks.length + p.margin ≤ s.budget c
  failed : ∀ t cause, o = .failed t cause → d.backtracks.length + p.margin ≤ s.budget c

namespace Setting.Thrifty

theorem of_matched (h : s.budget d + p.saving ≤ s.budget c) : s.Thrifty p c (.finished true) d := by
  refine ⟨fun _ => h, ?_, ?_⟩ <;> simp

theorem of_refused (h : d.backtracks.length ≤ c.backtracks.length ∨
    p.lavish = true ∧ s.tokens.kindAt c.position ∈ p.form.openers true ∧
      d.backtracks.length + p.margin ≤ s.budget c) : s.Thrifty p c (.finished false) d := by
  refine ⟨?_, fun _ => h, ?_⟩ <;> simp

theorem of_failed {t : Token} {cause : Expectation} (h : d.backtracks.length + p.margin ≤ s.budget c) :
    s.Thrifty p c (.failed t cause) d := by
  refine ⟨?_, ?_, fun _ _ _ => h⟩ <;> simp

end Setting.Thrifty

/-- All productions are thrifty that have less work to do than so much; of the unit, which has
no caller but itself, nothing is said. -/
def Setting.ThriftyBelow (s : Setting) (n : Nat) : Prop :=
  ∀ (q : Production) (c : Cursor) (o : Outcome) (d : Cursor), q ≠ .unit →
    s.work ⟨q, c.position⟩ < n → c.Sound s → c.Mirrors s c →
    Run s ⟨q, c.position⟩ (rules s.structTypes q) c o d → s.Thrifty q c o d

theorem Setting.length_le_budget (s : Setting) (c : Cursor) : c.backtracks.length ≤ s.budget c :=
  Nat.le_add_right ..

theorem Setting.budget_eq_of {c' : Cursor} (position : c'.position = c.position)
    (same : c'.backtracks = c.backtracks) : s.budget c' = s.budget c := by
  rw [budget, budget, position, same]

theorem Setting.budget_le_of_length {n : Nat} (position : c'.position = c.position)
    (few : c'.backtracks.length ≤ c.backtracks.length + n) : s.budget c' ≤ s.budget c + n := by
  rw [budget, budget, position]
  omega

theorem Setting.budget_advance {kind : TokenKind} (sound : c.Sound s)
    (here : s.tokens.kindAt c.position = kind) (notEnd : kind ≠ .endOfInput) :
    s.budget (c.advance kind) + 2 = s.budget c := by
  have inside : c.position ≠ s.tokens.firstEnd := by
    intro e
    rw [e, s.tokens.kindAt_firstEnd] at here
    exact notEnd here.symm
  have bound := sound.position_le
  rw [budget, budget, Cursor.position_advance notEnd, Cursor.backtracks_advance]
  omega

/-! ## Calls and their answers -/

theorem nullable_form (nonempty : p.nullable = false) : p.form.nullable = false := by
  cases p with
  | unit | moreOperands | suffixes => cases nonempty
  | _ => rfl

/-- A memory that stands for a run does so beside the cursor that it belongs to. -/
theorem Cursor.Mirrors.self (h : c.Mirrors s b) : c.Mirrors s c :=
  ⟨rfl, rfl, .refl _, h.replays⟩

/-- The production, called at `c`, has answered, and the caller goes on from `c'`. -/
structure Setting.Answers (s : Setting) (q : Production) (c : Cursor) (answer : Bool) (c' : Cursor) :
    Prop where
  /-- Without a memory it would have answered the same, and gone back as often or more. -/
  mirrored : ∃ b, Run s.forgetful ⟨q, c.position⟩ (rules s.structTypes q) c (.finished answer) b ∧
    c'.Mirrors s b
  sound : c'.Sound s
  thrifty : s.Thrifty q c (.finished answer) c'
  /-- An operand is remembered. -/
  known : s.recalling = true → q = .unary →
    c'.known[c.position]? = some (if answer then some c'.position else none)

theorem Setting.answers_of_lookup (sound : c.Sound s) (m : c.Mirrors s c)
    (known : c.lookup s q = some (answer, c')) : s.Answers q c answer c' := by
  obtain ⟨sound', -, far, rfl⟩ := sound.lookup known
  have same := Cursor.backtracks_of_lookup known
  refine ⟨m.lookup known, sound', ⟨?_, ?_, ?_⟩, fun _ _ => ?_⟩
  · intro e
    have ahead := far (Outcome.finished.inj e)
    have bound := sound'.position_le
    rw [budget, budget, same, Production.saving]
    omega
  · exact fun _ => .inl (Nat.le_of_eq (congrArg List.length same))
  · intro t cause e
    cases e
  · obtain ⟨result, entry, rfl, rfl⟩ := Cursor.exists_of_lookup known
    cases result with
    | none => exact entry
    | some stop => exact entry

theorem Setting.Thrifty.length_le_budget (h : s.Thrifty q c o d) :
    d.backtracks.length ≤ s.budget c := by
  have ahead := s.length_le_budget d
  have behind := s.length_le_budget c
  rcases o with (_ | _) | ⟨t, cause⟩
  · rcases h.refused rfl with unmoved | ⟨-, -, paid⟩
    · omega
    · omega
  · have paid := h.matched rfl
    omega
  · have paid := h.failed t cause rfl
    omega

theorem Setting.Thrifty.record (h : s.Thrifty q c o c') (start : Nat) (matched : Bool) :
    s.Thrifty q c o (c'.record s ⟨q, start⟩ matched) := by
  have position := Cursor.position_record s ⟨q, start⟩ matched c'
  have same := Cursor.backtracks_record s ⟨q, start⟩ matched c'
  refine ⟨?_, ?_, ?_⟩
  · rw [budget_eq_of position same]
    exact h.matched
  · rw [same]
    exact h.refused
  · rw [same]
    exact h.failed

/-- What is entered and finishes has paid, and is recorded. -/
theorem Setting.answers_of_run (sound : c.Sound s) (m : c.Mirrors s c)
    (thrifty : s.Thrifty q c (.finished answer) c')
    (body : Run s ⟨q, c.position⟩ (rules s.structTypes q) c (.finished answer) c') :
    s.Answers q c answer (c'.record s ⟨q, c.position⟩ answer) := by
  obtain ⟨b, run, m'⟩ := body.mirrored m
  obtain ⟨sound', far⟩ := body.sound sound
  refine ⟨⟨b, run, m'.record run⟩, ?_, thrifty.record .., fun recalls isUnary => ?_⟩
  · refine sound'.record fun matched isUnary => ?_
    simp only at isUnary
    subst isUnary matched
    exact far rfl rfl
  · rw [Cursor.position_record, Cursor.record, if_pos ⟨recalls, isUnary⟩]
    simp

theorem Run.opens (m : c.Mirrors s c) (selective : q.selective = true)
    (h : Run s ⟨q, c.position⟩ (rules s.structTypes q) c o d) (applies : o ≠ .finished false) :
    s.tokens.kindAt c.position ∈ q.form.openers true := by
  obtain ⟨b, run, -⟩ := h.mirrored m
  by_contra other
  exact applies (s.forgetful.yields_refusal rfl selective other c rfl _ _ run).1

/-- A called production fails, and the caller with it, or it answers. -/
theorem Setting.ThriftyBelow.answers (below : s.ThriftyBelow (s.work a)) (sound : c.Sound s)
    (m : c.Mirrors s c) (onTrack : (Command.call q hit miss).OnTrack a c.position)
    (notUnit : q ≠ .unit) (h : Run s a (.call q hit miss) c o d) :
    (∃ t cause b, o = .failed t cause ∧ s.Thrifty q c o d ∧
        Run s.forgetful ⟨q, c.position⟩ (rules s.structTypes q) c o b) ∨
      ∃ answer c', s.Answers q c answer c' ∧ Run s a (.choose answer hit miss) c' o d := by
  have less := Setting.work_lt sound.position_le onTrack.start_le onTrack.lower
  cases h with
  | recalled known rest => exact .inr ⟨_, _, s.answers_of_lookup sound m known, rest⟩
  | entered _ body rest =>
    have thrifty := below q c _ _ notUnit less sound m body
    exact .inr ⟨_, _, s.answers_of_run sound m thrifty body, rest⟩
  | aborted _ body =>
    obtain ⟨b, run, -⟩ := body.mirrored m
    exact .inl ⟨_, _, b, rfl, below q c _ _ notUnit less sound m body, run⟩

namespace Setting.Answers

variable (h : s.Answers q c answer c')

include h

theorem mirrors : c'.Mirrors s c' := by
  obtain ⟨b, -, m⟩ := h.mirrored
  exact m.self

theorem position_le : c.position ≤ c'.position := by
  obtain ⟨b, run, m⟩ := h.mirrored
  rw [m.position_eq]
  exact run.start_le (s := s.forgetful) rfl

theorem position_lt (matched : answer = true) (nonempty : q.nullable = false) :
    c.position < c'.position := by
  subst matched
  obtain ⟨b, run, m⟩ := h.mirrored
  rw [m.position_eq]
  exact run.start_lt (s := s.forgetful) rfl (nullable_form nonempty)

theorem position_eq (refused : answer = false) (stays : q.strays = false) :
    c'.position = c.position := by
  subst refused
  obtain ⟨b, run, m⟩ := h.mirrored
  rw [m.position_eq]
  exact run.position_of_refused (s := s.forgetful) stays

theorem length_le :
    ∃ b, Run s.forgetful ⟨q, c.position⟩ (rules s.structTypes q) c (.finished answer) b ∧
      c'.backtracks.length ≤ b.backtracks.length := by
  obtain ⟨b, run, m⟩ := h.mirrored
  exact ⟨b, run, m.backtracks_sublist.length_le⟩

theorem not_insists (refused : answer = false) : q.insists = false := by
  subst refused
  obtain ⟨b, run, -⟩ := h.mirrored
  by_contra insists
  exact run.ne_refused (s := s.forgetful) (by simpa using insists) rfl

theorem idle (selective : q.selective = true)
    (other : s.tokens.kindAt c.position ∉ q.form.openers true) :
    answer = false ∧ c'.position = c.position ∧ c'.backtracks.length ≤ c.backtracks.length := by
  obtain ⟨b, run, m⟩ := h.mirrored
  obtain ⟨e, there, unmoved⟩ := s.forgetful.idles rfl selective other c _ _ rfl run
  refine ⟨Outcome.finished.inj e, m.position_eq.trans there, ?_⟩
  rw [← unmoved]
  exact m.backtracks_sublist.length_le

theorem opens (matched : answer = true) (selective : q.selective = true) :
    s.tokens.kindAt c.position ∈ q.form.openers true := by
  by_contra other
  have refused := (h.idle selective other).1
  rw [matched] at refused
  cases refused

/-- What refuses has gone back to its start, but for a type, which may have taken `struct`. -/
theorem position_eq_or (refused : answer = false) (notUnit : q ≠ .unit) :
    c'.position = c.position ∨ c.position < c'.position ∧ q.strays = true ∧
      s.tokens.kindAt c.position = .keyword .kwStruct := by
  subst refused
  obtain ⟨b, run, m⟩ := h.mirrored
  rw [m.position_eq]
  rcases run.at_start_or_struct (s := s.forgetful) notUnit with there | ⟨rfl, -, there, isStruct, -⟩
  · exact .inl there
  · refine .inr ⟨?_, rfl, isStruct⟩
    omega

end Setting.Answers

/-! ## Commands that are thrifty -/

namespace Command

/-- Whether the command, in a body of `p`, comes to nothing without going back more than once,
where a token of one of the `kinds` stands and at least `credit` moves are left over. What stands
at the start of the body is of one of the kinds `first`; if nothing is said of it the cursor is
there. -/
def wanes (p : Production) : Option (List TokenKind) → List TokenKind → Nat → Command → Bool
  | first, kinds, credit, finish matched =>
    !matched && first.isNone && p.lavish && decide (p.margin ≤ credit) &&
      kinds.all (p.form.openers true).contains
  | _, _, credit, fail _ => decide (p.margin ≤ credit)
  | first, kinds, credit, token kind _ miss =>
    !kinds.contains kind && miss.wanes p first kinds credit
  | first, kinds, credit, call q _ miss =>
    q != .unit && q.selective && (q.form.openers true).all (fun kind => !kinds.contains kind) &&
      miss.wanes p first kinds credit
  | none, kinds, credit, rewind next => next.wanes p none kinds credit
  | some first, _, credit, rewind next =>
    p.lavish && decide (1 ≤ credit) && next.wanes p none first (credit - 1)

/-- Whether the command, in a body of `p`, keeps to the budget, where at least `credit` moves are
left over. What stands at the start of the body is of one of the kinds `first`; if nothing is said
of it the cursor is there and has not gone back. -/
def thrifty (p : Production) : Option (List TokenKind) → Nat → Command → Bool
  | first, credit, finish matched => if matched then decide (p.saving ≤ credit) else first.isNone
  | _, credit, fail _ => decide (p.margin ≤ credit)
  | first, credit, token kind hit miss =>
    kind != .endOfInput && hit.thrifty p (some (first.getD [kind])) (credit + 2) &&
      miss.thrifty p first credit
  | first, credit, call q hit miss =>
    q != .unit && (q.selective || first.isSome || !p.lavish) &&
      decide (p.margin ≤ credit + q.margin) &&
      hit.thrifty p (some (first.getD (q.form.openers true))) (credit + q.saving) &&
      (q.insists || miss.thrifty p first credit &&
        (!q.strays || miss.thrifty p (some (first.getD [.keyword .kwStruct])) (credit + 2)) &&
        (!q.lavish || !q.strays && miss.wanes p first (q.form.openers true) (credit + q.margin)))
  | none, credit, rewind next => next.thrifty p none credit
  | some first, credit, rewind next =>
    p.lavish && decide (1 ≤ credit) && next.wanes p none first (credit - 1)

end Command

/-- Whether the check is enough for the production. -/
def Production.plain : Production → Bool
  | unit | typeSpec | cast | expression => false
  | _ => true

theorem thrifty_rules (structTypes : Bool) (hp : p.plain = true) :
    (rules structTypes p).thrifty p none 0 = true := by
  cases structTypes <;> cases p with
  | binary l | moreOperands l => cases l <;> decide
  | _ => first | decide | cases hp

section

variable {first : Option (List TokenKind)} {kinds : List TokenKind} {credit : Nat} {kind : TokenKind}

/-- The body of `p`, begun at `c₀`, has come to `c` and has so many moves left over. -/
structure Setting.Saves (s : Setting) (p : Production) (c₀ : Cursor)
    (first : Option (List TokenKind)) (credit : Nat) (c : Cursor) : Prop where
  sound : c.Sound s
  mirrors : c.Mirrors s c
  saved : s.budget c + credit ≤ s.budget c₀
  home : first = none →
    c.position = c₀.position ∧ c.backtracks.length ≤ c₀.backtracks.length
  opens : p.lavish = true → ∀ kinds, first = some kinds → s.tokens.kindAt c₀.position ∈ kinds

/-- The body of `p`, begun at `c₀`, has come to `c`, where a token of one of the `kinds` stands, and
has so many moves left over, though perhaps at the price of all the tokens ahead. -/
structure Setting.Spends (s : Setting) (p : Production) (c₀ : Cursor)
    (first : Option (List TokenKind)) (kinds : List TokenKind) (credit : Nat) (c : Cursor) :
    Prop where
  sound : c.Sound s
  mirrors : c.Mirrors s c
  stands : s.tokens.kindAt c.position ∈ kinds
  spent : c.backtracks.length + credit ≤ s.budget c₀
  home : first = none → c.position = c₀.position
  opens : p.lavish = true → ∀ kinds, first = some kinds → s.tokens.kindAt c₀.position ∈ kinds

namespace Setting.Saves

theorem begin (sound : c.Sound s) (m : c.Mirrors s c) : s.Saves p c none 0 c :=
  ⟨sound, m, Nat.le_refl _, fun _ => ⟨rfl, Nat.le_refl _⟩, by simp⟩

theorem length_le (h : s.Saves p c₀ first credit c) :
    c.backtracks.length + credit ≤ s.budget c₀ :=
  calc c.backtracks.length + credit
      ≤ s.budget c + credit := Nat.add_le_add_right (s.length_le_budget c) credit
    _ ≤ s.budget c₀ := h.saved

/-- The first token that is taken, or the first production that matches, tells what stands at the
start. -/
theorem opens_getD (h : s.Saves p c₀ first credit c) (told : p.lavish = true → first = none →
    s.tokens.kindAt c.position ∈ kinds) : p.lavish = true →
      ∀ kinds', some (first.getD kinds) = some kinds' → s.tokens.kindAt c₀.position ∈ kinds' := by
  intro lavish kinds' e
  cases first with
  | none =>
    cases e
    rw [← (h.home rfl).1]
    exact told lavish rfl
  | some first =>
    cases e
    exact h.opens lavish first rfl

theorem taken (h : s.Saves p c₀ first credit c) (here : s.tokens.kindAt c.position = kind)
    (notEnd : kind ≠ .endOfInput) :
    s.Saves p c₀ (some (first.getD [kind])) (credit + 2) (c.advance kind) := by
  have paid := Setting.budget_advance h.sound here notEnd
  have saved := h.saved
  refine ⟨h.sound.advance here, h.mirrors.advance kind, by omega, by simp, h.opens_getD ?_⟩
  intro _ _
  rw [here]
  exact List.mem_singleton_self _

theorem missed (h : s.Saves p c₀ first credit c) : s.Saves p c₀ first credit c.miss :=
  ⟨h.sound.miss, h.mirrors.miss.self, h.saved, h.home, h.opens⟩

theorem matched (h : s.Saves p c₀ first credit c) (answers : s.Answers q c true c')
    (told : q.selective = true ∨ first.isSome = true ∨ p.lavish = false) :
    s.Saves p c₀ (some (first.getD (q.form.openers true))) (credit + q.saving) c' := by
  have paid := answers.thrifty.matched rfl
  have saved := h.saved
  refine ⟨answers.sound, answers.mirrors, by omega, by simp, h.opens_getD ?_⟩
  intro lavish isHome
  have selective : q.selective = true := by simpa [lavish, isHome] using told
  exact answers.opens rfl selective

theorem refused (h : s.Saves p c₀ first credit c) (answers : s.Answers q c false c')
    (there : c'.position = c.position) (unmoved : c'.backtracks.length ≤ c.backtracks.length) :
    s.Saves p c₀ first credit c' := by
  have less : s.budget c' ≤ s.budget c + 0 := s.budget_le_of_length there unmoved
  have saved := h.saved
  refine ⟨answers.sound, answers.mirrors, by omega, fun isHome => ?_, h.opens⟩
  obtain ⟨same, less⟩ := h.home isHome
  exact ⟨there.trans same, Nat.le_trans unmoved less⟩

/-- What is taken of a type that is refused pays for a move. -/
theorem strayed (h : s.Saves p c₀ first credit c) (answers : s.Answers q c false c')
    (ahead : c.position < c'.position) (isStruct : s.tokens.kindAt c.position = .keyword .kwStruct)
    (unmoved : c'.backtracks.length ≤ c.backtracks.length) :
    s.Saves p c₀ (some (first.getD [.keyword .kwStruct])) (credit + 2) c' := by
  have bound := answers.sound.position_le
  have paid : s.budget c' + 2 ≤ s.budget c := by
    rw [Setting.budget, Setting.budget]
    omega
  have saved := h.saved
  refine ⟨answers.sound, answers.mirrors, by omega, by simp, h.opens_getD ?_⟩
  intro _ _
  rw [isStruct]
  exact List.mem_singleton_self _

theorem spends (h : s.Saves p c₀ first credit c) (answers : s.Answers q c false c')
    (there : c'.position = c.position) (opener : s.tokens.kindAt c.position ∈ kinds)
    (paid : c'.backtracks.length + q.margin ≤ s.budget c) :
    s.Spends p c₀ first kinds (credit + q.margin) c' := by
  have saved := h.saved
  rw [← there] at opener
  exact ⟨answers.sound, answers.mirrors, opener, by omega,
    fun isHome => there.trans (h.home isHome).1, h.opens⟩

theorem rewound_of_home (h : s.Saves p c₀ none credit c) : c.rewind c₀.position = c :=
  Cursor.rewind_of_eq (h.home rfl).1

theorem rewound (h : s.Saves p c₀ (some kinds) credit c) (le : c₀.position ≤ c.position)
    (lavish : p.lavish = true) (positive : 1 ≤ credit) :
    s.Spends p c₀ none kinds (credit - 1) (c.rewind c₀.position) := by
  have back := Cursor.position_rewind c₀.position c
  have one := Cursor.length_backtracks_rewind_le c₀.position c
  have left := h.length_le
  have stands := h.opens lavish kinds rfl
  rw [← back] at stands
  exact ⟨h.sound.rewind le, h.mirrors.rewind _, stands, by omega, fun _ => back, by simp⟩

end Setting.Saves

namespace Setting.Spends

theorem missed (h : s.Spends p c₀ first kinds credit c) : s.Spends p c₀ first kinds credit c.miss :=
  ⟨h.sound.miss, h.mirrors.miss.self, h.stands, h.spent, h.home, h.opens⟩

theorem refused (h : s.Spends p c₀ first kinds credit c) (answers : s.Answers q c false c')
    (there : c'.position = c.position) (unmoved : c'.backtracks.length ≤ c.backtracks.length) :
    s.Spends p c₀ first kinds credit c' := by
  have spent := h.spent
  refine ⟨answers.sound, answers.mirrors, ?_, by omega,
    fun isHome => there.trans (h.home isHome), h.opens⟩
  rw [there]
  exact h.stands

theorem rewound_of_home (h : s.Spends p c₀ none kinds credit c) : c.rewind c₀.position = c :=
  Cursor.rewind_of_eq (h.home rfl)

theorem rewound {kinds' : List TokenKind} (h : s.Spends p c₀ (some kinds') kinds credit c)
    (le : c₀.position ≤ c.position) (lavish : p.lavish = true) (positive : 1 ≤ credit) :
    s.Spends p c₀ none kinds' (credit - 1) (c.rewind c₀.position) := by
  have back := Cursor.position_rewind c₀.position c
  have one := Cursor.length_backtracks_rewind_le c₀.position c
  have spent := h.spent
  have stands := h.opens lavish kinds' rfl
  rw [← back] at stands
  exact ⟨h.sound.rewind le, h.mirrors.rewind _, stands, by omega, fun _ => back, by simp⟩

theorem thrifty (below : s.ThriftyBelow (s.work ⟨p, c₀.position⟩))
    (spends : s.Spends p c₀ first kinds credit c) (hk : k.wanes p first kinds credit = true)
    (onTrack : k.OnTrack ⟨p, c₀.position⟩ c.position) (h : Run s ⟨p, c₀.position⟩ k c o d) :
    s.Thrifty p c₀ o d := by
  have spent := spends.spent
  induction k generalizing c first kinds credit with
  | finish matched =>
    simp only [Command.wanes, Bool.and_eq_true, Bool.not_eq_true', Option.isNone_iff_eq_none,
      decide_eq_true_eq, List.all_eq_true, List.contains_iff_mem] at hk
    obtain ⟨⟨⟨⟨rfl, isHome⟩, lavish⟩, enough⟩, subset⟩ := hk
    cases h
    have opener := subset _ spends.stands
    rw [spends.home isHome] at opener
    exact .of_refused (.inr ⟨lavish, opener, by omega⟩)
  | fail cause =>
    have enough : p.margin ≤ credit := by simpa [Command.wanes] using hk
    cases h
    exact .of_failed (by omega)
  | token kind hit miss _ ihMiss =>
    simp only [Command.wanes, Bool.and_eq_true, Bool.not_eq_true', ← Bool.not_eq_true,
      List.contains_iff_mem] at hk
    cases h with
    | taken here _ => exact absurd (here ▸ spends.stands) hk.1
    | missed _ rest => exact ihMiss spends.missed hk.2 onTrack.missed rest spent
  | call q hit miss _ ihMiss =>
    simp only [Command.wanes, Bool.and_eq_true, bne_iff_ne, List.all_eq_true, Bool.not_eq_true',
      ← Bool.not_eq_true, List.contains_iff_mem] at hk
    obtain ⟨⟨⟨notUnit, selective⟩, apart⟩, hMiss⟩ := hk
    have other : s.tokens.kindAt c.position ∉ q.form.openers true :=
      fun mem => apart _ mem spends.stands
    rcases below.answers spends.sound spends.mirrors onTrack notUnit h with
      ⟨t, cause, b, rfl, -, run⟩ | ⟨answer, c', answers, rest⟩
    · have refuses := s.forgetful.yields_refusal rfl selective other c rfl _ _ run
      exact absurd refuses.1 (by simp)
    · have onTrack' := onTrack.resumed answers.position_le answers.position_lt
      obtain ⟨rfl, there, unmoved⟩ := answers.idle selective other
      have spends' := spends.refused answers there unmoved
      exact ihMiss spends' hMiss onTrack' rest spends'.spent
  | rewind next ihNext =>
    have onTrack' : next.OnTrack ⟨p, c₀.position⟩ (c.rewind c₀.position).position := by
      rw [Cursor.position_rewind]
      exact onTrack.rewound
    cases h with
    | rewound rest =>
      cases first with
      | none =>
        rw [spends.rewound_of_home] at onTrack' rest
        exact ihNext spends hk onTrack' rest spent
      | some first =>
        simp only [Command.wanes, Bool.and_eq_true, decide_eq_true_eq] at hk
        obtain ⟨⟨lavish, positive⟩, hNext⟩ := hk
        have spends' := spends.rewound onTrack.start_le lavish positive
        exact ihNext spends' hNext onTrack' rest spends'.spent

end Setting.Spends

/-- A command that is thrifty keeps to the budget. -/
theorem Setting.Saves.thrifty (below : s.ThriftyBelow (s.work ⟨p, c₀.position⟩))
    (saves : s.Saves p c₀ first credit c) (hk : k.thrifty p first credit = true)
    (onTrack : k.OnTrack ⟨p, c₀.position⟩ c.position) (h : Run s ⟨p, c₀.position⟩ k c o d) :
    s.Thrifty p c₀ o d := by
  have saved := saves.saved
  have left := saves.length_le
  induction k generalizing c first credit with
  | finish matched =>
    cases h
    cases matched with
    | true =>
      have enough : p.saving ≤ credit := by simpa [Command.thrifty] using hk
      exact .of_matched (by omega)
    | false =>
      have isHome : first = none := by simpa [Command.thrifty] using hk
      exact .of_refused (.inl (saves.home isHome).2)
  | fail cause =>
    have enough : p.margin ≤ credit := by simpa [Command.thrifty] using hk
    cases h
    exact .of_failed (by omega)
  | token kind hit miss ihHit ihMiss =>
    simp only [Command.thrifty, Bool.and_eq_true, bne_iff_ne] at hk
    obtain ⟨⟨notEnd, hHit⟩, hMiss⟩ := hk
    cases h with
    | taken here rest =>
      have saves' := saves.taken here notEnd
      exact ihHit saves' hHit onTrack.taken rest saves'.saved saves'.length_le
    | missed _ rest => exact ihMiss saves.missed hMiss onTrack.missed rest saved left
  | call q hit miss ihHit ihMiss =>
    simp only [Command.thrifty, Bool.and_eq_true, bne_iff_ne, decide_eq_true_eq, Bool.or_eq_true,
      Bool.not_eq_true', or_assoc] at hk
    obtain ⟨⟨⟨⟨notUnit, told⟩, enough⟩, hHit⟩, hMiss⟩ := hk
    rcases below.answers saves.sound saves.mirrors onTrack notUnit h with
      ⟨t, cause, b, rfl, failed, -⟩ | ⟨answer, c', answers, rest⟩
    · have bound := failed.failed t cause rfl
      exact .of_failed (by omega)
    have onTrack' := onTrack.resumed answers.position_le answers.position_lt
    cases answer with
    | true =>
      have saves' := saves.matched answers told
      exact ihHit saves' hHit onTrack' rest saves'.saved saves'.length_le
    | false =>
      have notInsists := answers.not_insists rfl
      obtain ⟨⟨hSame, hStray⟩, hLavish⟩ := hMiss.resolve_left (by simp [notInsists])
      rcases answers.thrifty.refused rfl with unmoved | ⟨lavish, opener, paid⟩
      · -- nothing has been paid, and the cursor is where it was, or past `struct` and a name
        rcases answers.position_eq_or rfl notUnit with there | ⟨ahead, strays, isStruct⟩
        · have saves' := saves.refused answers there unmoved
          exact ihMiss saves' hSame onTrack' rest saves'.saved saves'.length_le
        · have saves' := saves.strayed answers ahead isStruct unmoved
          have hStray := hStray.resolve_left (by simp [strays])
          exact ihMiss saves' hStray onTrack' rest saves'.saved saves'.length_le
      · -- nothing may be paid any more
        obtain ⟨stays, hWanes⟩ := hLavish.resolve_left (by simp [lavish])
        have there := answers.position_eq rfl stays
        exact (saves.spends answers there opener paid).thrifty below hWanes onTrack' rest
  | rewind next ihNext =>
    have onTrack' : next.OnTrack ⟨p, c₀.position⟩ (c.rewind c₀.position).position := by
      rw [Cursor.position_rewind]
      exact onTrack.rewound
    cases h with
    | rewound rest =>
      cases first with
      | none =>
        rw [saves.rewound_of_home] at onTrack' rest
        exact ihNext saves hk onTrack' rest saved left
      | some first =>
        simp only [Command.thrifty, Bool.and_eq_true, decide_eq_true_eq] at hk
        obtain ⟨⟨lavish, positive⟩, hNext⟩ := hk
        exact (saves.rewound onTrack.start_le lavish positive).thrifty below hNext onTrack' rest

end

end AtomFrontEnd

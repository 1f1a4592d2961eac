import AtomFrontEnd.Proofs.Opening
import AtomFrontEnd.Proofs.Recall

/-!
Where a command leads when nothing is remembered.

`Command.Leads` says that every run of a command from a cursor comes to one
answer at one position, and `Setting.Yields` says so of a production called at a
position. There is one lemma for each kind of step, so that a command is carried
out on paper by applying them in turn. A production whose openers do not hold the
kind that stands at a position refuses there (`yields_refusal`), and has not even
gone back (`idles`).
-/

namespace AtomFrontEnd

/-- All runs of the command from the cursor finish, with this answer and here. -/
def Command.Leads (s : Setting) (a : Activation) (k : Command) (c : Cursor) (matched : Bool)
    (stop : Nat) : Prop :=
  ∀ (o : Outcome) (d : Cursor), Run s a k c o d → o = .finished matched ∧ d.position = stop

/-- Called at the position, the production finishes with this answer and there. -/
def Setting.Yields (s : Setting) (p : Production) (start : Nat) (matched : Bool)
    (stop : Nat) : Prop :=
  ∀ c : Cursor, c.position = start →
    (rules s.structTypes p).Leads s ⟨p, start⟩ c matched stop

namespace Command.Leads

variable {s : Setting} {a : Activation} {hit miss next : Command} {c : Cursor} {kind : TokenKind}
  {p : Production} {answer matched : Bool} {stop mid : Nat}

theorem finish (h : c.position = stop) : (finish matched).Leads s a c matched stop := by
  intro o d run
  cases run
  exact ⟨rfl, h⟩

theorem taken (here : s.tokens.kindAt c.position = kind) (notEnd : kind ≠ .endOfInput)
    (h : ∀ c' : Cursor, c'.position = c.position + 1 → hit.Leads s a c' matched stop) :
    (token kind hit miss).Leads s a c matched stop := by
  intro o d run
  cases run with
  | taken _ rest => exact h _ (Cursor.position_advance notEnd c) _ _ rest
  | missed other _ => exact absurd here other

theorem ended (here : s.tokens.kindAt c.position = .endOfInput)
    (h : hit.Leads s a c matched stop) :
    (token .endOfInput hit miss).Leads s a c matched stop := by
  intro o d run
  cases run with
  | taken _ rest => exact h _ _ rest
  | missed other _ => exact absurd here other

theorem needed {m : MissingToken} (here : s.tokens.kindAt c.position = m.kind)
    (h : ∀ c' : Cursor, c'.position = c.position + 1 → next.Leads s a c' matched stop) :
    (need m next).Leads s a c matched stop :=
  taken here m.kind_ne_endOfInput h

theorem missed (other : s.tokens.kindAt c.position ≠ kind)
    (h : miss.Leads s a c.miss matched stop) :
    (token kind hit miss).Leads s a c matched stop := by
  intro o d run
  cases run with
  | taken here _ => exact absurd here other
  | missed _ rest => exact h _ _ rest

theorem rewound (h : next.Leads s a (c.rewind a.start) matched stop) :
    (Command.rewind next).Leads s a c matched stop := by
  intro o d run
  cases run with
  | rewound rest => exact h _ _ rest

theorem called (hs : s.recalling = false) (body : s.Yields p c.position answer mid)
    (h : ∀ c' : Cursor, c'.position = mid → (choose answer hit miss).Leads s a c' matched stop) :
    (call p hit miss).Leads s a c matched stop := by
  intro o d run
  cases run with
  | recalled known _ => exact absurd known (by simp [Cursor.lookup_of_forgetful hs])
  | entered _ inner rest =>
    obtain ⟨e, there⟩ := body c rfl _ _ inner
    obtain rfl := Outcome.finished.inj e
    rw [Cursor.record_of_forgetful hs] at rest
    exact h _ there _ _ rest
  | aborted _ inner => exact absurd (body c rfl _ _ inner).1 (by simp)

theorem become (hs : s.recalling = false) (body : s.Yields p c.position matched stop) :
    (become p).Leads s a c matched stop := by
  apply called hs body
  intro c' here
  cases matched with
  | true => exact finish here
  | false => exact finish here

end Command.Leads

/-! ## Runs taken apart -/

section

variable {s : Setting} {a : Activation} {hit miss : Command} {c d : Cursor} {o : Outcome}
  {p : Production} {matched : Bool}

/-- A call of what is not remembered enters the production. It fails, and the caller with it,
or the caller goes on by its answer. -/
theorem Run.cases_of_call (fresh : s.recalling = true → p ≠ .unary)
    (h : Run s a (.call p hit miss) c o d) :
    (∃ t cause, o = .failed t cause ∧ Run s ⟨p, c.position⟩ (rules s.structTypes p) c o d) ∨
      ∃ answer c', Run s ⟨p, c.position⟩ (rules s.structTypes p) c (.finished answer) c' ∧
        Run s a (.choose answer hit miss) c' o d := by
  cases h with
  | recalled known _ => exact absurd known (by simp [Cursor.lookup_of_fresh fresh])
  | entered _ body rest =>
    rw [Cursor.record_of_fresh fresh] at rest
    exact .inr ⟨_, _, body, rest⟩
  | aborted _ body => exact .inl ⟨_, _, rfl, body⟩

theorem Run.body_of_become (fresh : s.recalling = true → p ≠ .unary)
    (h : Run s a (.become p) c o d) : Run s ⟨p, c.position⟩ (rules s.structTypes p) c o d := by
  rcases h.cases_of_call fresh with ⟨t, cause, rfl, body⟩ | ⟨answer, c', body, rest⟩
  · exact body
  · cases answer with
    | true =>
      cases rest
      exact body
    | false =>
      cases rest
      exact body

theorem Run.called_of_finished (hs : s.recalling = false)
    (h : Run s a (.call p hit miss) c (.finished matched) d) :
    ∃ answer c', Run s ⟨p, c.position⟩ (rules s.structTypes p) c (.finished answer) c' ∧
      Run s a (.choose answer hit miss) c' (.finished matched) d := by
  rcases h.cases_of_call (by simp [hs]) with ⟨t, cause, e, -⟩ | called
  · cases e
  · exact called

theorem Run.of_become (hs : s.recalling = false) (h : Run s a (.become p) c o d) :
    Run s ⟨p, c.position⟩ (rules s.structTypes p) c o d :=
  h.body_of_become (by simp [hs])

end

/-! ## Refusals -/

namespace Production

/-- Whether the production refuses where none of its openers stands. -/
def selective (p : Production) : Bool := !p.insists && p != .unit

end Production

/-- Whether the command, in a body of `p`, looks only for openers of `p` until it
refuses. -/
def Command.selects (p : Production) : Command → Bool
  | finish matched => !matched
  | fail _ => false
  | token kind _ miss => (p.form.openers true).contains kind && miss.selects p
  | call q _ miss =>
    q.selective && decide (q.rank < p.rank) && miss.selects p &&
      (q.form.openers true).all (p.form.openers true).contains
  | rewind next => next.selects p

theorem selects_rules (structTypes : Bool) (p : Production) (h : p.selective = true) :
    (rules structTypes p).selects p = true := by
  cases structTypes <;> cases p with
  | binary l => cases l <;> decide
  | _ => first | decide | cases h

/-- Called at the position, the production refuses there and has not gone back. -/
def Setting.Idles (s : Setting) (p : Production) (start : Nat) : Prop :=
  ∀ (c : Cursor) (o : Outcome) (d : Cursor), c.position = start →
    Run s ⟨p, start⟩ (rules s.structTypes p) c o d →
    o = .finished false ∧ d.position = start ∧ d.backtracks = c.backtracks

theorem Command.idles_of_selects {s : Setting} {p : Production} {start : Nat}
    (hs : s.recalling = false) (other : ∀ kind ∈ p.form.openers true, s.tokens.kindAt start ≠ kind)
    (ih : ∀ q : Production, q.rank < p.rank → q.selective = true →
      (∀ kind ∈ q.form.openers true, s.tokens.kindAt start ≠ kind) → s.Idles q start)
    (k : Command) (hk : k.selects p = true) (c : Cursor) {o : Outcome} {d : Cursor}
    (here : c.position = start) (h : Run s ⟨p, start⟩ k c o d) :
    o = .finished false ∧ d.position = start ∧ d.backtracks = c.backtracks := by
  induction k generalizing c with
  | finish matched =>
    obtain rfl : matched = false := by simpa [selects] using hk
    cases h
    exact ⟨rfl, here, rfl⟩
  | fail => cases hk
  | token kind hit miss _ ihMiss =>
    simp only [selects, Bool.and_eq_true, List.contains_iff_mem] at hk
    cases h with
    | taken stands _ => exact absurd stands (here ▸ other kind hk.1)
    | missed _ rest => exact ihMiss hk.2 c.miss here rest
  | call q hit miss _ ihMiss =>
    simp only [selects, Bool.and_eq_true, decide_eq_true_eq, List.all_eq_true,
      List.contains_iff_mem] at hk
    obtain ⟨⟨⟨selective, lower⟩, hMiss⟩, subset⟩ := hk
    have idles := ih q lower selective fun kind mem => other kind (subset kind mem)
    subst here
    rcases h.cases_of_call (by simp [hs]) with ⟨t, cause, rfl, body⟩ | ⟨answer, c₁, body, rest⟩
    · exact absurd (idles c _ _ rfl body).1 (by simp)
    · obtain ⟨e, there, unmoved⟩ := idles c _ _ rfl body
      obtain rfl := Outcome.finished.inj e
      obtain ⟨refused, back, still⟩ := ihMiss hMiss c₁ there rest
      exact ⟨refused, back, still.trans unmoved⟩
  | rewind next ihNext =>
    cases h with
    | rewound rest =>
      rw [Cursor.rewind_of_eq here] at rest
      exact ihNext hk c here rest

/-- A production refuses where none of its openers stands, and stays there. -/
theorem Setting.idles {s : Setting} (hs : s.recalling = false) {p : Production}
    (hp : p.selective = true) {start : Nat}
    (other : s.tokens.kindAt start ∉ p.form.openers true) : s.Idles p start := by
  suffices all : ∀ (n : Nat) (q : Production), q.rank = n → q.selective = true →
      (∀ kind ∈ q.form.openers true, s.tokens.kindAt start ≠ kind) → s.Idles q start from
    all _ p rfl hp fun kind h e => other (e ▸ h)
  intro n
  induction n using Nat.strongRecOn with
  | _ n ih =>
    intro q rank selective other c o d here h
    exact Command.idles_of_selects hs other (fun r lower => ih _ (rank ▸ lower) r rfl) _
      (selects_rules _ _ selective) c here h

theorem Setting.yields_refusal {s : Setting} (hs : s.recalling = false) {p : Production}
    (hp : p.selective = true) {start : Nat}
    (other : s.tokens.kindAt start ∉ p.form.openers true) : s.Yields p start false start := by
  intro c here o d h
  obtain ⟨refused, there, -⟩ := s.idles hs hp other c o d here h
  exact ⟨refused, there⟩

end AtomFrontEnd

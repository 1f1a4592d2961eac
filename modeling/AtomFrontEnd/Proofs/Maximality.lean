import AtomFrontEnd.Proofs.Exactness
import AtomFrontEnd.Proofs.Soundness

/-!
Operands are read as far as they go.

Where the kinds of an operand stand and are over, just these are taken (`yields_of_derives`). But
they may also stand where they are not over: a name before a parenthesis, or any operand before a
bracket or a dot. Then the recognizer goes on, and having gone on it neither refuses nor goes back
(`Command.steady`), so that it takes more than these kinds, or fails. `Command.greedy` checks this
of a body. A body that is predictive and greedy covers whatever it admits, wherever that stands
(`Command.carries_of_greedy`), and so operands do (`Setting.covers`).
-/

namespace AtomFrontEnd

variable {s : Setting} {a : Activation} {k : Command} {c d : Cursor} {o : Outcome} {p : Production}
  {matched moved : Bool} {start stop : Nat} {u v w : List TokenKind}

/-! ## Commands that go on -/

/-- Whether the command neither refuses nor goes back, if those productions do not refuse that
insist. -/
def Command.steady : Command → Bool
  | finish matched => matched
  | fail _ => true
  | token _ hit miss => hit.steady && miss.steady
  | call q hit miss => hit.steady && (q.insists || miss.steady)
  | rewind _ => false

theorem Run.matched_of_steady (hs : s.recalling = false) (h : Run s a k c o d)
    (hk : k.steady = true) (finished : o = .finished matched) :
    matched = true ∧ c.position ≤ d.position := by
  induction h with
  | finish =>
    obtain rfl := Outcome.finished.inj finished
    exact ⟨hk, Nat.le_refl _⟩
  | fail => cases finished
  | taken _ _ ih =>
    simp only [Command.steady, Bool.and_eq_true] at hk
    obtain ⟨hit, le⟩ := ih hk.1 finished
    exact ⟨hit, Nat.le_trans (Cursor.le_position_advance _ (Nat.le_refl _)) le⟩
  | missed _ _ ih =>
    simp only [Command.steady, Bool.and_eq_true] at hk
    exact ih hk.2 finished
  | rewound => cases hk
  | recalled known => exact absurd known (by simp [Cursor.lookup_of_forgetful hs])
  | @entered _ _ _ _ _ answer _ _ _ _ body _ _ ihRest =>
    simp only [Command.steady, Bool.and_eq_true, Bool.or_eq_true] at hk
    rw [Cursor.position_record] at ihRest
    have ahead := body.start_le hs
    cases answer with
    | true =>
      obtain ⟨hit, le⟩ := ihRest hk.1 finished
      exact ⟨hit, Nat.le_trans ahead le⟩
    | false =>
      obtain ⟨hit, le⟩ := ihRest (hk.2.resolve_left fun insists => body.ne_refused insists rfl) finished
      exact ⟨hit, Nat.le_trans ahead le⟩
  | aborted => cases finished

/-! ## Greedy commands -/

/-- Whether the production takes up whatever its match could go on with. -/
def Production.greedy : Production → Bool
  | unary | suffixed | suffixes | primary => true
  | _ => false

/-- Whether the command takes up whatever its match could go on with: where the match may be over,
what is taken up instead is steady. -/
def Command.greedy : Command → Bool
  | finish _ => true
  | fail _ => true
  | token _ hit miss => (!miss.finishes || hit.steady) && hit.greedy && miss.greedy
  | call q hit miss =>
    (q.extenders.isEmpty || !hit.finishes || q.greedy && hit.steady) && !miss.finishes &&
      hit.greedy && miss.greedy
  | rewind _ => true

theorem greedy_rules (structTypes : Bool) (p : Production) (h : p.greedy = true) :
    (rules structTypes p).greedy = true := by
  cases structTypes <;> cases p with
  | binary | moreOperands => cases h
  | _ => first | decide | cases h

/-- Called at the position, the production matches if it finishes, there or farther on. -/
def Setting.Covers (s : Setting) (p : Production) (start stop : Nat) : Prop :=
  ∀ (c : Cursor) (matched : Bool) (d : Cursor), c.position = start →
    Run s ⟨p, start⟩ (rules s.structTypes p) c (.finished matched) d →
    matched = true ∧ stop ≤ d.position

/-- What the forms describe of greedy productions and sequences whose size is below `n` is covered
wherever it stands. -/
def Setting.CoversBelow (s : Setting) (n : Nat) : Prop :=
  ∀ (q : Production) (v : List TokenKind) (i : Nat), 14 * v.length + q.rank < n →
    q.greedy = true → Derives s.structTypes q.form v → s.tokens.Shows i v →
    s.Covers q i (i + v.length)

/-- A command that is predictive and greedy covers what it admits, if the greedy productions that
it calls cover what their forms describe. -/
theorem Command.carries_of_greedy (hs : s.recalling = false)
    (ih : s.CoversBelow (14 * w.length + p.rank)) (shown : s.tokens.Shows start w)
    (hk : k.predictive s.structTypes p moved = true) (greedy : k.greedy = true)
    (h : k.Admits s.structTypes u w) (hu : moved = true → u ≠ [])
    (here : c.position = start + u.length) (run : Run s ⟨p, start⟩ k c (.finished matched) d) :
    matched = true ∧ start + w.length ≤ d.position := by
  induction k generalizing moved u c with
  | finish =>
    obtain ⟨rfl, rfl⟩ := h
    cases run
    exact ⟨rfl, Nat.le_of_eq here.symm⟩
  | fail => cases h
  | token kind hit miss ihHit ihMiss =>
    simp only [predictive, Bool.and_eq_true, bne_iff_ne, Bool.not_eq_true',
      List.contains_iff_mem, ← Bool.not_eq_true] at hk
    simp only [Command.greedy, Bool.and_eq_true, Bool.or_eq_true, Bool.not_eq_true',
      ← Bool.not_eq_true] at greedy
    obtain ⟨⟨⟨⟨notEnd, notOpener⟩, -⟩, hHit⟩, hMiss⟩ := hk
    obtain ⟨⟨steady, greedyHit⟩, greedyMiss⟩ := greedy
    simp only [Admits, if_neg notEnd] at h
    rcases h with h | h
    · -- the token is there, since what is admitted goes on with it
      obtain ⟨⟨stands, -⟩, -⟩ := h.shows_part hHit shown
      cases run with
      | missed other _ => exact absurd (here ▸ stands) other
      | taken _ rest =>
        refine ihHit hHit greedyHit h (fun _ => by simp) ?_ rest
        rw [Cursor.position_advance notEnd, here, List.length_append]
        rfl
    · cases run with
      | missed _ rest => exact ihMiss (c := c.miss) hMiss greedyMiss h hu here rest
      | taken stands rest =>
        rcases h.opens_or_finishes hMiss shown with opens | ⟨finishes, rfl⟩
        · rw [← here, stands] at opens
          exact absurd opens notOpener
        · have goesOn := steady.resolve_left fun no => no finishes
          rw [← here]
          obtain ⟨hit, le⟩ := rest.matched_of_steady hs goesOn rfl
          exact ⟨hit, Nat.le_trans (Cursor.le_position_advance _ (Nat.le_refl _)) le⟩
  | call q hit miss ihHit ihMiss =>
    have parts := hk
    simp only [predictive, Bool.and_eq_true, bne_iff_ne, Bool.or_eq_true, decide_eq_true_eq]
      at parts
    simp only [Command.greedy, Bool.and_eq_true, Bool.or_eq_true, Bool.not_eq_true',
      List.isEmpty_iff, ← Bool.not_eq_true] at greedy
    obtain ⟨⟨⟨⟨⟨notUnit, lower⟩, -⟩, -⟩, hHit⟩, hMiss⟩ := parts
    obtain ⟨⟨⟨covers, notOver⟩, greedyHit⟩, greedyMiss⟩ := greedy
    obtain ⟨answer, c', body, rest⟩ := run.called_of_finished hs
    rcases h with ⟨v, hv, h⟩ | h
    · obtain ⟨shownCall, le⟩ := h.shows_part hHit shown
      by_cases extends_ : s.tokens.kindAt (start + u.length + v.length) ∈ q.extenders
      · -- the part could go on, so nothing is left, and the production covers its part
        rcases h.opens_or_finishes hHit shown with opens | ⟨finishes, rfl⟩
        · rw [List.length_append, ← Nat.add_assoc] at opens
          exact absurd extends_ (not_mem_extenders_of_predictive hk (.inl opens))
        · have extensible : ¬ (q.extenders = [] ∨ ¬ hit.finishes = true) := by
            intro no
            rcases no with empty | open_
            · rw [empty] at extends_
              cases extends_
            · exact open_ finishes
          obtain ⟨greedyCall, goesOn⟩ := covers.resolve_left extensible
          have covered := ih q v _ (part_lt hu lower le) greedyCall hv shownCall
          rw [← here] at covered
          obtain ⟨rfl, far⟩ := covered c _ _ rfl body
          obtain ⟨hit, le'⟩ := rest.matched_of_steady hs goesOn rfl
          rw [List.length_append, ← Nat.add_assoc, ← here]
          exact ⟨hit, Nat.le_trans far le'⟩
      · -- the production spans its part
        have spans := yields_of_derives hs hv shownCall (Production.over_of_not_mem notUnit extends_)
        rw [← here] at spans
        obtain ⟨e, there⟩ := spans c rfl _ _ body
        obtain rfl := Outcome.finished.inj e
        refine ihHit hHit greedyHit h (ne_nil_of_moved hv hu) ?_ rest
        rw [there, here, List.length_append, Nat.add_assoc]
    · -- something is left that the production does not open with
      have opens := (h.opens_or_finishes hMiss shown).resolve_right fun isOver => notOver isOver.1
      rw [← here] at opens
      obtain ⟨e, there⟩ := yields_refusal_of_predictive hs hk (.inl opens) c rfl _ _ body
      obtain rfl := Outcome.finished.inj e
      exact ihMiss hMiss greedyMiss h hu (there.trans here) rest
  | rewind next _ =>
    cases next with
    | finish matched =>
      cases matched with
      | true => cases hk
      | false => cases h.1
    | _ => cases hk

/-- Operands, and what they are made of, are covered wherever they stand, if nothing is
remembered. -/
theorem Setting.covers (hs : s.recalling = false) (greedy : p.greedy = true)
    (h : Derives s.structTypes p.form w) (shown : s.tokens.Shows start w) :
    s.Covers p start (start + w.length) := by
  suffices below : ∀ n, s.CoversBelow n from
    below _ p w start (Nat.lt_succ_self _) greedy h shown
  intro n
  induction n with
  | zero =>
    intro q v i less
    exact absurd less (Nat.not_lt_zero _)
  | succ n ih =>
    intro q v i less greedy h shown c matched d here run
    have smaller : s.CoversBelow (14 * v.length + q.rank) := by
      intro q' v' i' less'
      exact ih q' v' i' (by omega)
    have ahead : q.ahead = true := by
      cases q with
      | unary | suffixed | suffixes | primary => rfl
      | _ => cases greedy
    rw [← admits_rules_iff] at h
    apply Command.carries_of_greedy hs smaller shown (predictive_rules _ _ ahead)
      (greedy_rules _ _ greedy) h _ here run
    intro moved
    cases moved

end AtomFrontEnd

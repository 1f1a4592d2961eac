import AtomFrontEnd.Proofs.DanglingElse
import AtomFrontEnd.Proofs.Execution
import AtomFrontEnd.Proofs.Slice

/-!
Commands that need to look at one token only.

A recognizer takes the first way that is open, so it loses nothing by it only if
no other way could have led to a match. `Command.predictive` checks this of a
command, one token ahead: what may come after a miss does not open with what was
looked for, and what follows a called production is not what the production
itself could go on with (`Production.extenders`). A predictive command spans
whatever it admits (`Command.leads_of_predictive`), provided that this holds of
the productions it calls.
-/

namespace AtomFrontEnd

/-! ## What a match could go on with -/

/-- The level and those that bind more tightly. -/
def Level.andTighter : Level → List Level
  | disjunction => [disjunction, conjunction, equality, relation, sum, product]
  | conjunction => [conjunction, equality, relation, sum, product]
  | equality => [equality, relation, sum, product]
  | relation => [relation, sum, product]
  | sum => [sum, product]
  | product => [product]

namespace Production

/-- Kinds with which a match that is over could have gone on. -/
def extenders : Production → List TokenKind
  | param => [.symbol .leftBracket]
  | statement => [.keyword .kwElse]
  | primary => [.symbol .leftParen]
  | suffixed | suffixes | unary | cast => operandExtenders
  | binary l | moreOperands l => l.andTighter.flatMap Level.operators ++ operandExtenders
  | expression =>
    .symbol .assign :: (Level.disjunction.andTighter.flatMap Level.operators ++ operandExtenders)
  | _ => []
where
  /-- An operand could go on with arguments, an index or a field. -/
  operandExtenders : List TokenKind := [.symbol .leftParen, .symbol .leftBracket, .symbol .dot]

/-- The match of `w` is over where `next` follows it: the end must follow a unit,
and an `else` must not find an open `if` in a statement. -/
def Over (structTypes : Bool) (p : Production) (w : List TokenKind) (next : TokenKind) : Prop :=
  match p with
  | unit => next = .endOfInput
  | statement => next = .keyword .kwElse → Nested structTypes true w
  | p => next ∉ p.extenders

theorem over_of_not_mem {b : Bool} {p : Production} {w : List TokenKind} {next : TokenKind}
    (hp : p ≠ unit) (h : next ∉ p.extenders) : p.Over b w next := by
  cases p with
  | unit => exact absurd rfl hp
  | statement =>
    intro e
    rw [e] at h
    exact absurd (List.mem_singleton_self _) h
  | _ => exact h

end Production

/-- What the forms describe of productions and sequences whose size is below `n`
is spanned wherever it stands and is over. -/
def Setting.SpansBelow (s : Setting) (n : Nat) : Prop :=
  ∀ (q : Production) (v : List TokenKind) (i : Nat), 14 * v.length + q.rank < n →
    Derives s.structTypes q.form v → s.tokens.Shows i v →
    q.Over s.structTypes v (s.tokens.kindAt (i + v.length)) → s.Yields q i true (i + v.length)

section

variable {s : Setting} {v w : List TokenKind}

theorem Setting.SpansBelow.part {n : Nat} (ih : s.SpansBelow (14 * w.length + n)) (q : Production)
    (less : v.length < w.length) (h : Derives s.structTypes q.form v) {i : Nat}
    (shown : s.tokens.Shows i v) (hq : q ≠ .unit)
    (beyond : s.tokens.kindAt (i + v.length) ∉ q.extenders) : s.Yields q i true (i + v.length) := by
  have bound := q.rank_lt
  exact ih q v i (by omega) h shown (Production.over_of_not_mem hq beyond)

theorem Setting.SpansBelow.lower {n : Nat} (ih : s.SpansBelow (14 * w.length + n)) (q : Production)
    (less : q.rank < n) (le : v.length ≤ w.length) (h : Derives s.structTypes q.form v) {i : Nat}
    (shown : s.tokens.Shows i v) (hq : q ≠ .unit)
    (beyond : s.tokens.kindAt (i + v.length) ∉ q.extenders) : s.Yields q i true (i + v.length) :=
  ih q v i (by omega) h shown (Production.over_of_not_mem hq beyond)

end

/-! ## Commands that predict -/

namespace Command

/-- Kinds with which the rest of a match opens, at this command. -/
def openers (structTypes : Bool) : Command → List TokenKind
  | finish _ => []
  | fail _ => []
  | token kind _ miss => kind :: miss.openers structTypes
  | call q hit miss =>
    q.form.openers structTypes ++ (if q.form.nullable then hit.openers structTypes else [])
      ++ miss.openers structTypes
  | rewind _ => []

/-- Whether the match may be over at this command. -/
def finishes : Command → Bool
  | finish matched => matched
  | fail _ => false
  | token _ _ miss => miss.finishes
  | call q hit miss => (q.form.nullable && hit.finishes) || miss.finishes
  | rewind _ => false

/-- Whether in a body of `p` the next token decides between this command's ways;
`moved` says that a token has been taken. A command that goes back must give up. -/
def predictive (structTypes : Bool) (p : Production) : Bool → Command → Bool
  | _, finish _ => true
  | _, fail _ => true
  | moved, token kind hit miss =>
    kind != .endOfInput && !(miss.openers structTypes).contains kind &&
      (!miss.finishes || p.extenders.contains kind) &&
      hit.predictive structTypes p true && miss.predictive structTypes p moved
  | moved, call q hit miss =>
    q != .unit && (moved || decide (q.rank < p.rank)) &&
      q.extenders.all (fun kind => !(hit.openers structTypes).contains kind &&
        (!hit.finishes || p.extenders.contains kind)) &&
      ((miss.openers structTypes).isEmpty && !miss.finishes ||
        q.selective && (q.form.openers true).all (fun kind =>
          !(miss.openers structTypes).contains kind &&
          (!miss.finishes || p.extenders.contains kind))) &&
      hit.predictive structTypes p (moved || !q.form.nullable) &&
      miss.predictive structTypes p moved
  | _, rewind (finish false) => true
  | _, rewind _ => false

variable {b : Bool} {p : Production} {moved : Bool} {u w : List TokenKind}

theorem Admits.exists_rest {k : Command} (hk : k.predictive b p moved = true)
    (h : k.Admits b u w) :
    ∃ v, w = u ++ v ∧ (v = [] → k.finishes = true) ∧
      ∀ kind rest, v = kind :: rest → kind ∈ k.openers b := by
  induction k generalizing moved u with
  | finish matched =>
    obtain ⟨rfl, rfl⟩ := h
    exact ⟨[], (List.append_nil u).symm, fun _ => rfl, fun _ _ e => by cases e⟩
  | fail => cases h
  | token kind hit miss ihHit ihMiss =>
    simp only [predictive, Bool.and_eq_true, bne_iff_ne] at hk
    obtain ⟨⟨⟨⟨notEnd, -⟩, -⟩, hHit⟩, hMiss⟩ := hk
    simp only [Admits, if_neg notEnd] at h
    rcases h with h | h
    · obtain ⟨v, rfl, -, -⟩ := ihHit hHit h
      refine ⟨kind :: v, by simp, fun e => (by cases e), fun other rest e => ?_⟩
      obtain rfl := (List.cons.inj e).1
      exact List.mem_cons_self
    · obtain ⟨v, rfl, beyond, opens⟩ := ihMiss hMiss h
      exact ⟨v, rfl, beyond, fun other rest e => List.mem_cons_of_mem _ (opens other rest e)⟩
  | call q hit miss ihHit ihMiss =>
    simp only [predictive, Bool.and_eq_true] at hk
    rcases h with ⟨v, hv, h⟩ | h
    · obtain ⟨v', rfl, beyond, opens⟩ := ihHit hk.1.2 h
      refine ⟨v ++ v', by simp, fun e => ?_, fun kind rest e => ?_⟩
      · obtain ⟨rfl, rfl⟩ := List.append_eq_nil_iff.mp e
        simp [finishes, hv.nullable_of_nil rfl, beyond rfl]
      · cases v with
        | nil =>
          have nullable := hv.nullable_of_nil rfl
          simp [openers, nullable, opens kind rest e]
        | cons first v =>
          obtain ⟨rfl, -⟩ := List.cons.inj e
          simp [openers, hv.mem_openers rfl]
    · obtain ⟨v, rfl, beyond, opens⟩ := ihMiss hk.2 h
      refine ⟨v, rfl, fun e => by simp [finishes, beyond e], fun kind rest e => ?_⟩
      exact List.mem_append_right _ (opens kind rest e)
  | rewind next ih =>
    cases next with
    | finish matched =>
      cases matched with
      | true => cases hk
      | false => cases h.1
    | _ => cases hk

/-- The kind after what is behind a predictive command opens the rest of what it
admits, or nothing is left. -/
theorem Admits.opens_or_finishes {ts : TokenSequence} {start : Nat} {k : Command}
    (hk : k.predictive b p moved = true) (h : k.Admits b u w) (shown : ts.Shows start w) :
    ts.kindAt (start + u.length) ∈ k.openers b ∨ k.finishes = true ∧ w = u := by
  obtain ⟨v, rfl, isOver, opens⟩ := h.exists_rest hk
  cases v with
  | nil => exact .inr ⟨isOver rfl, List.append_nil u⟩
  | cons first v =>
    rw [TokenSequence.shows_append] at shown
    rw [shown.2.1]
    exact .inl (opens first v rfl)

theorem Admits.kindAt_next {ts : TokenSequence} {start : Nat} {k : Command}
    (hk : k.predictive b p moved = true) (h : k.Admits b u w) (shown : ts.Shows start w)
    (beyond : ts.kindAt (start + w.length) ∉ p.extenders) :
    ts.kindAt (start + u.length) ∈ k.openers b ∨
      k.finishes = true ∧ ts.kindAt (start + u.length) ∉ p.extenders := by
  rcases h.opens_or_finishes hk shown with opens | ⟨finishes, rfl⟩
  · exact .inl opens
  · exact .inr ⟨finishes, beyond⟩

theorem Admits.shows_part {ts : TokenSequence} {start : Nat} {k : Command} {v : List TokenKind}
    (hk : k.predictive b p moved = true) (h : k.Admits b (u ++ v) w) (shown : ts.Shows start w) :
    ts.Shows (start + u.length) v ∧ (u ++ v).length ≤ w.length := by
  obtain ⟨rest, rfl, -, -⟩ := h.exists_rest hk
  rw [List.append_assoc, TokenSequence.shows_append, TokenSequence.shows_append] at shown
  exact ⟨shown.2.1, (List.prefix_append (u ++ v) rest).length_le⟩

theorem part_lt {q : Production} {v : List TokenKind} (hu : moved = true → u ≠ [])
    (lower : moved = true ∨ q.rank < p.rank) (le : (u ++ v).length ≤ w.length) :
    14 * v.length + q.rank < 14 * w.length + p.rank := by
  have bound := q.rank_lt
  rw [List.length_append] at le
  rcases lower with far | near
  · have pos := List.length_pos_iff.mpr (hu far)
    omega
  · omega

theorem ne_nil_of_moved {q : Production} {v : List TokenKind} (hv : Derives b q.form v)
    (hu : moved = true → u ≠ []) : (moved || !q.form.nullable) = true → u ++ v ≠ [] := by
  intro far e
  obtain ⟨rfl, rfl⟩ := List.append_eq_nil_iff.mp e
  have nullable := hv.nullable_of_nil rfl
  simp only [nullable, Bool.not_true, Bool.or_false] at far
  exact hu far rfl

section

variable {s : Setting} {q : Production} {hit miss : Command} {next : TokenKind}

/-- What a predictive command goes on with after a called production does not extend that
production's match. -/
theorem not_mem_extenders_of_predictive (hk : (call q hit miss).predictive b p moved = true)
    (goesOn : next ∈ hit.openers b ∨ hit.finishes = true ∧ next ∉ p.extenders) :
    next ∉ q.extenders := by
  simp only [predictive, Bool.and_eq_true, Bool.not_eq_true', Bool.or_eq_true, List.all_eq_true,
    List.contains_iff_mem, ← Bool.not_eq_true] at hk
  obtain ⟨⟨⟨⟨-, follows⟩, -⟩, -⟩, -⟩ := hk
  intro mem
  rcases goesOn with opens | ⟨finishes, notExtender⟩
  · exact (follows _ mem).1 opens
  · exact notExtender ((follows _ mem).2.resolve_left fun no => no finishes)

/-- Where a predictive command goes on without a called production, that one refuses:
one of its openers would decide for the other way. -/
theorem yields_refusal_of_predictive (hs : s.recalling = false) {i : Nat}
    (hk : (call q hit miss).predictive b p moved = true)
    (goesOn : s.tokens.kindAt i ∈ miss.openers b ∨
      miss.finishes = true ∧ s.tokens.kindAt i ∉ p.extenders) : s.Yields q i false i := by
  simp only [predictive, Bool.and_eq_true, Bool.not_eq_true', Bool.or_eq_true, List.all_eq_true,
    List.contains_iff_mem, List.isEmpty_iff, ← Bool.not_eq_true] at hk
  obtain ⟨⟨⟨-, apart⟩, -⟩, -⟩ := hk
  have something : ¬ (miss.openers b = [] ∧ ¬ miss.finishes = true) := by
    intro nothing
    rcases goesOn with opens | ⟨finishes, -⟩
    · rw [nothing.1] at opens
      cases opens
    · exact nothing.2 finishes
  obtain ⟨selective, apart⟩ := apart.resolve_left something
  apply s.yields_refusal hs selective
  intro mem
  rcases goesOn with opens | ⟨finishes, notExtender⟩
  · exact (apart _ mem).1 opens
  · exact notExtender ((apart _ mem).2.resolve_left fun no => no finishes)

end

/-- A predictive command spans what it admits, if the productions that it calls
span what their forms describe. -/
theorem leads_of_predictive {s : Setting} (hs : s.recalling = false) {start : Nat}
    (ih : s.SpansBelow (14 * w.length + p.rank)) (shown : s.tokens.Shows start w)
    (beyond : s.tokens.kindAt (start + w.length) ∉ p.extenders)
    {k : Command} (hk : k.predictive s.structTypes p moved = true)
    (h : k.Admits s.structTypes u w) (hu : moved = true → u ≠ [])
    {c : Cursor} (here : c.position = start + u.length) :
    k.Leads s ⟨p, start⟩ c true (start + w.length) := by
  induction k generalizing moved u c with
  | finish matched =>
    obtain ⟨rfl, rfl⟩ := h
    exact .finish here
  | fail => cases h
  | token kind hit miss ihHit ihMiss =>
    simp only [predictive, Bool.and_eq_true, bne_iff_ne, Bool.not_eq_true', Bool.or_eq_true,
      List.contains_iff_mem, ← Bool.not_eq_true] at hk
    obtain ⟨⟨⟨⟨notEnd, notOpener⟩, extends_⟩, hHit⟩, hMiss⟩ := hk
    simp only [Admits, if_neg notEnd] at h
    rcases h with h | h
    · -- the token is there, since what is admitted goes on with it
      obtain ⟨v, e, -, -⟩ := h.exists_rest hHit
      have stands : s.tokens.kindAt c.position = kind := by
        rw [e, List.append_assoc, TokenSequence.shows_append] at shown
        rw [here]
        exact shown.2.1
      refine .taken stands notEnd ?_
      intro c' there
      apply ihHit hHit h (fun _ => by simp)
      rw [there, here, List.length_append]
      rfl
    · -- the token is not there, since what is admitted goes on without it
      have other : s.tokens.kindAt c.position ≠ kind := by
        intro e
        subst e
        rw [here] at notOpener extends_
        rcases h.kindAt_next hMiss shown beyond with opens | ⟨isOver, notExtender⟩
        · exact notOpener opens
        · exact notExtender (extends_.resolve_left fun no => no isOver)
      exact .missed other (ihMiss hMiss h hu here)
  | call q hit miss ihHit ihMiss =>
    have parts := hk
    simp only [predictive, Bool.and_eq_true, bne_iff_ne, Bool.or_eq_true, decide_eq_true_eq]
      at parts
    obtain ⟨⟨⟨⟨⟨notUnit, lower⟩, -⟩, -⟩, hHit⟩, hMiss⟩ := parts
    rcases h with ⟨v, hv, h⟩ | h
    · -- the production spans its part
      obtain ⟨shownCall, le⟩ := h.shows_part hHit shown
      have goesOn := h.kindAt_next hHit shown beyond
      rw [List.length_append, ← Nat.add_assoc] at goesOn
      have isOver := not_mem_extenders_of_predictive hk goesOn
      have body := ih q v _ (part_lt hu lower le) hv shownCall
        (Production.over_of_not_mem notUnit isOver)
      rw [← here] at body
      refine .called hs body ?_
      intro c' there
      apply ihHit hHit h (ne_nil_of_moved hv hu)
      rw [there, here, List.length_append, Nat.add_assoc]
    · -- the production refuses
      have refuses := yields_refusal_of_predictive hs hk (h.kindAt_next hMiss shown beyond)
      rw [← here] at refuses
      refine .called hs refuses ?_
      intro c' there
      exact ihMiss hMiss h hu (there.trans here)
  | rewind next _ =>
    cases next with
    | finish matched =>
      cases matched with
      | true => cases hk
      | false => cases h.1
    | _ => cases hk

end Command

/-- Whether one token ahead is enough in the production's body. -/
def Production.ahead : Production → Bool
  | unit | funcDef | statement | expression | cast => false
  | _ => true

theorem predictive_rules (structTypes : Bool) (p : Production) (h : p.ahead = true) :
    (rules structTypes p).predictive structTypes p false = true := by
  cases structTypes <;> cases p with
  | binary l | moreOperands l => cases l <;> decide
  | _ => first | decide | cases h

end AtomFrontEnd

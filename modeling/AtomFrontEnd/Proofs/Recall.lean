import AtomFrontEnd.Parser
import AtomFrontEnd.Proofs.Refusal

/-!
What is remembered changes nothing but the number of moves back.

`Parser.forgetful` is the parser that remembers no finished `unary` production
and so finds out everything again. Without a memory a run does to a cursor only
what its position decides, whatever else the cursor holds (`Run.passage`). Hence
each thing that is remembered stands for a run that can be carried out again at
any time, and whose misses have been counted already; `Cursor.Mirrors` says so of
a whole cursor, and a run that remembers keeps it beside one that does not
(`Run.mirrored`). Only the moves back inside what is recalled are not made again.
-/

namespace AtomFrontEnd

/-- The setting in which nothing is remembered. -/
def Setting.forgetful (s : Setting) : Setting := { s with recalling := false }

def Parser.forgetful (p : Parser) : Parser := { p with setting := p.setting.forgetful }

variable {s : Setting} {a : Activation} {k : Command} {b c d : Cursor} {o : Outcome}

namespace Cursor

theorem lookup_of_fresh {p : Production} (fresh : s.recalling = true → p ≠ .unary) (c : Cursor) :
    c.lookup s p = none :=
  if_neg fun both => fresh both.1 both.2

theorem record_of_fresh {p : Production} (fresh : s.recalling = true → p ≠ .unary) (start : Nat)
    (matched : Bool) (c : Cursor) : c.record s ⟨p, start⟩ matched = c :=
  if_neg fun both => fresh both.1 both.2

theorem lookup_of_forgetful (hs : s.recalling = false) (p : Production) (c : Cursor) :
    c.lookup s p = none :=
  lookup_of_fresh (by simp [hs]) c

theorem record_of_forgetful (hs : s.recalling = false) (a : Activation) (matched : Bool)
    (c : Cursor) : c.record s a matched = c :=
  record_of_fresh (by simp [hs]) a.start matched c

theorem exists_of_lookup {p : Production} {matched : Bool} {c' : Cursor}
    (known : c.lookup s p = some (matched, c')) :
    ∃ result, c.known[c.position]? = some result ∧ matched = result.isSome ∧
      c' = { c with position := result.getD c.position } := by
  unfold lookup at known
  split at known
  · split at known
    · cases known
    · cases known
      exact ⟨none, ‹_›, rfl, rfl⟩
    · cases known
      exact ⟨some _, ‹_›, rfl, rfl⟩
  · cases known

end Cursor

/-! ## Runs without a memory -/

theorem Run.called_of_fresh {p : Production} {hit miss : Command} {matched : Bool} {c' : Cursor}
    (fresh : s.recalling = true → p ≠ .unary)
    (body : Run s ⟨p, c.position⟩ (rules s.structTypes p) c (.finished matched) c')
    (rest : Run s a (.choose matched hit miss) c' o d) : Run s a (.call p hit miss) c o d := by
  refine .entered (Cursor.lookup_of_fresh fresh c) body ?_
  rw [Cursor.record_of_fresh fresh]
  exact rest

theorem Run.called {p : Production} {hit miss : Command} {matched : Bool} {c' : Cursor}
    (hs : s.recalling = false)
    (body : Run s ⟨p, c.position⟩ (rules s.structTypes p) c (.finished matched) c')
    (rest : Run s a (.choose matched hit miss) c' o d) : Run s a (.call p hit miss) c o d :=
  .called_of_fresh (by simp [hs]) body rest

/-- What a run does to every cursor that stands where it begins. -/
structure Passage where
  stop : Nat
  /-- The farthest position at which a token was missed on the way. -/
  farthestMiss : Nat
  /-- The moves back on the way, the latest first. -/
  backtracks : List Backtrack

def Cursor.after (c : Cursor) (e : Passage) : Cursor :=
  { c with
    position := e.stop
    farthestMiss := max c.farthestMiss e.farthestMiss
    backtracks := e.backtracks ++ c.backtracks }

/-- Without a memory, what a run does depends on where it begins, and on nothing
else that the cursor holds. -/
theorem Run.passage (hs : s.recalling = false) (h : Run s a k c o d) :
    ∃ e : Passage, ∀ b : Cursor, b.position = c.position → Run s a k b o (b.after e) := by
  induction h with
  | @finish a matched c =>
    refine ⟨⟨c.position, 0, []⟩, fun b here => ?_⟩
    have same : b.after ⟨c.position, 0, []⟩ = b := by simp [Cursor.after, ← here]
    rw [same]
    exact .finish
  | @fail a cause c =>
    refine ⟨⟨c.position, 0, []⟩, fun b here => ?_⟩
    have same : b.after ⟨c.position, 0, []⟩ = b := by simp [Cursor.after, ← here]
    rw [same, ← here]
    exact .fail
  | @taken a kind hit miss c o d stands _ ih =>
    obtain ⟨e, again⟩ := ih
    refine ⟨e, fun b here => .taken (here ▸ stands) ?_⟩
    have same : (b.advance kind).after e = b.after e := by
      unfold Cursor.advance
      split <;> rfl
    rw [← same]
    refine again _ ?_
    unfold Cursor.advance
    split <;> simp [here]
  | @missed a kind hit miss c o d other _ ih =>
    obtain ⟨e, again⟩ := ih
    refine ⟨{ e with farthestMiss := max c.position e.farthestMiss }, fun b here => ?_⟩
    have same : b.miss.after e = b.after { e with farthestMiss := max c.position e.farthestMiss } := by
      simp [Cursor.after, Cursor.miss, ← here, Nat.max_assoc]
    rw [← same]
    exact .missed (here ▸ other) (again _ here)
  | @rewound a next c o d _ ih =>
    obtain ⟨e, again⟩ := ih
    refine ⟨{ e with
      backtracks := e.backtracks ++ if a.start = c.position then [] else [⟨c.position, a.start⟩] },
      fun b here => ?_⟩
    have same : (b.rewind a.start).after e = b.after { e with
        backtracks := e.backtracks ++
          if a.start = c.position then [] else [⟨c.position, a.start⟩] } := by
      unfold Cursor.rewind
      rw [here]
      split <;> simp [Cursor.after]
    rw [← same]
    exact .rewound (again _ (by simp))
  | recalled known _ _ => exact absurd known (by simp [Cursor.lookup_of_forgetful hs])
  | @entered a p hit miss c matched c' o d _ body _ ihBody ihRest =>
    obtain ⟨e, againBody⟩ := ihBody
    obtain ⟨f, againRest⟩ := ihRest
    have stop : c'.position = e.stop := by
      rw [(body.unique (againBody c rfl)).2]
      rfl
    refine ⟨⟨f.stop, max e.farthestMiss f.farthestMiss, f.backtracks ++ e.backtracks⟩,
      fun b here => .called hs (here ▸ againBody b here) ?_⟩
    have same : (b.after e).after f =
        b.after ⟨f.stop, max e.farthestMiss f.farthestMiss, f.backtracks ++ e.backtracks⟩ := by
      simp [Cursor.after, Nat.max_assoc]
    rw [← same]
    refine againRest _ ?_
    rw [Cursor.record_of_forgetful hs, stop]
    rfl
  | aborted _ _ ihBody =>
    obtain ⟨e, again⟩ := ihBody
    exact ⟨e, fun b here => .aborted (Cursor.lookup_of_forgetful hs ..) (here ▸ again b here)⟩

theorem Run.agrees (hs : s.recalling = false) {b' c' : Cursor} {o' : Outcome}
    (h : Run s a k b o b') (h' : Run s a k c o' c') (here : b.position = c.position) :
    o = o' ∧ b'.position = c'.position := by
  obtain ⟨e, again⟩ := h.passage hs
  obtain ⟨sameB, rfl⟩ := h.unique (again b rfl)
  obtain ⟨rfl, rfl⟩ := h'.unique (again c here.symm)
  exact ⟨rfl, rfl⟩

/-! ## The two runs side by side -/

/-- What is remembered of `start` can be found out again, by a run that misses no
token farther on than `farthest`. -/
def Setting.Replays (s : Setting) (start : Nat) (result : Option Nat) (farthest : Nat) : Prop :=
  ∃ e : Passage, e.stop = result.getD start ∧ e.farthestMiss ≤ farthest ∧
    ∀ b : Cursor, b.position = start →
      Run s.forgetful ⟨.unary, start⟩ (rules s.structTypes .unary) b
        (.finished result.isSome) (b.after e)

theorem Setting.Replays.mono {start : Nat} {result : Option Nat} {m n : Nat}
    (h : s.Replays start result m) (le : m ≤ n) : s.Replays start result n := by
  obtain ⟨e, stop, bound, again⟩ := h
  exact ⟨e, stop, Nat.le_trans bound le, again⟩

/-- The cursor `c` of a run that remembers beside the cursor `b` of one that does
not: they agree on all but the memory and some moves back. -/
structure Cursor.Mirrors (s : Setting) (c b : Cursor) : Prop where
  position_eq : c.position = b.position
  farthestMiss_eq : c.farthestMiss = b.farthestMiss
  backtracks_sublist : c.backtracks.Sublist b.backtracks
  replays : ∀ {start : Nat} {result : Option Nat}, c.known[start]? = some result →
    s.Replays start result c.farthestMiss

namespace Cursor.Mirrors

theorem refl_initial (s : Setting) : Cursor.Mirrors s {} {} :=
  ⟨rfl, rfl, .refl _, fun h => by simp at h⟩

theorem advance (h : c.Mirrors s b) (kind : TokenKind) :
    (c.advance kind).Mirrors s (b.advance kind) := by
  unfold Cursor.advance
  split
  · exact h
  · exact ⟨congrArg (· + 1) h.position_eq, h.farthestMiss_eq, h.backtracks_sublist, h.replays⟩

theorem miss (h : c.Mirrors s b) : c.miss.Mirrors s b.miss where
  position_eq := h.position_eq
  farthestMiss_eq := by
    show max c.farthestMiss c.position = max b.farthestMiss b.position
    rw [h.farthestMiss_eq, h.position_eq]
  backtracks_sublist := h.backtracks_sublist
  replays known := (h.replays known).mono (Nat.le_max_left ..)

theorem rewind (h : c.Mirrors s b) (start : Nat) : (c.rewind start).Mirrors s (b.rewind start) := by
  unfold Cursor.rewind
  rw [← h.position_eq]
  split
  · exact h
  · exact ⟨rfl, h.farthestMiss_eq, h.backtracks_sublist.cons_cons _, h.replays⟩

theorem lookup {p : Production} {matched : Bool} {c' : Cursor} (h : c.Mirrors s b)
    (known : c.lookup s p = some (matched, c')) :
    ∃ b', Run s.forgetful ⟨p, b.position⟩ (rules s.structTypes p) b (.finished matched) b' ∧
      c'.Mirrors s b' := by
  obtain rfl := Cursor.eq_unary_of_lookup known
  obtain ⟨result, entry, rfl, rfl⟩ := Cursor.exists_of_lookup known
  obtain ⟨e, stop, bound, again⟩ := h.replays entry
  refine ⟨b.after e, h.position_eq ▸ again b h.position_eq.symm, stop.symm, ?_, ?_, h.replays⟩
  · rw [h.farthestMiss_eq] at bound
    exact h.farthestMiss_eq.trans (Nat.max_eq_left bound).symm
  · exact h.backtracks_sublist.trans (List.sublist_append_right ..)

theorem record {p : Production} {matched : Bool} {b₀ : Cursor} (h : c.Mirrors s b)
    (body : Run s.forgetful ⟨p, b₀.position⟩ (rules s.structTypes p) b₀ (.finished matched) b) :
    (c.record s ⟨p, b₀.position⟩ matched).Mirrors s b := by
  unfold Cursor.record
  split
  · rename_i isUnary
    obtain rfl : p = .unary := isUnary.2
    refine ⟨h.position_eq, h.farthestMiss_eq, h.backtracks_sublist, fun {start result} known => ?_⟩
    simp only [Std.TreeMap.getElem?_insert] at known
    split at known
    · rename_i same
      rw [Nat.compare_eq_eq] at same
      subst same
      obtain rfl := Option.some.inj known
      obtain ⟨e, again⟩ := body.passage rfl
      obtain rfl := (body.unique (again b₀ rfl)).2
      refine ⟨e, ?_, ?_, ?_⟩
      · cases matched with
        | true => exact h.position_eq.symm
        | false => exact Run.position_of_refused rfl body
      · rw [h.farthestMiss_eq]
        exact Nat.le_max_right ..
      · cases matched <;> exact again
    · exact h.replays known
  · exact h

end Cursor.Mirrors

/-- Beside every run that remembers there is one that does not, with the same
outcome. -/
theorem Run.mirrored (h : Run s a k c o d) (m : c.Mirrors s b) :
    ∃ b', Run s.forgetful a k b o b' ∧ d.Mirrors s b' := by
  induction h generalizing b with
  | finish => exact ⟨b, .finish, m⟩
  | fail =>
    rw [m.position_eq]
    exact ⟨b, .fail, m⟩
  | taken here _ ih =>
    obtain ⟨b', run, m'⟩ := ih (m.advance _)
    exact ⟨b', .taken (m.position_eq ▸ here) run, m'⟩
  | missed other _ ih =>
    obtain ⟨b', run, m'⟩ := ih m.miss
    exact ⟨b', .missed (m.position_eq ▸ other) run, m'⟩
  | rewound _ ih =>
    obtain ⟨b', run, m'⟩ := ih (m.rewind _)
    exact ⟨b', .rewound run, m'⟩
  | recalled known _ ih =>
    obtain ⟨b₁, body, m₁⟩ := m.lookup known
    obtain ⟨b', run, m'⟩ := ih m₁
    exact ⟨b', .called rfl body run, m'⟩
  | entered _ _ _ ihBody ihRest =>
    obtain ⟨b₁, body, m₁⟩ := ihBody m
    rw [m.position_eq] at body
    obtain ⟨b', run, m'⟩ := ihRest (m.position_eq ▸ m₁.record body)
    exact ⟨b', .called rfl body run, m'⟩
  | aborted _ _ ihBody =>
    obtain ⟨b', body, m'⟩ := ihBody m
    rw [m.position_eq] at body
    exact ⟨b', .aborted (Cursor.lookup_of_forgetful rfl ..) body, m'⟩

theorem Setting.recognize_forgetful (s : Setting) :
    s.recognize.1 = s.forgetful.recognize.1 ∧
      s.recognize.2.Mirrors s s.forgetful.recognize.2 := by
  obtain ⟨b, run, m⟩ := s.run_recognize.mirrored (.refl_initial s)
  obtain ⟨same, rfl⟩ := run.unique s.forgetful.run_recognize
  exact ⟨same, m⟩

theorem Setting.verdict_forgetful (m : c.Mirrors s b) (o : Outcome) :
    s.verdict o c = s.forgetful.verdict o b := by
  unfold Setting.verdict Cursor.stalledAt
  rw [m.farthestMiss_eq, m.position_eq]
  rfl

/-- The verdict, where the cursor comes to rest and the farthest token missed do
not depend on the memory, and of the moves back some are left out. -/
theorem parse_eq_parse_forgetful (tokens : Array Token) (structTypes : Bool) :
    let parser := Parser.ofTokens tokens structTypes
    parser.parse.1 = parser.forgetful.parse.1 ∧
      parser.parse.2.position = parser.forgetful.parse.2.position ∧
      parser.parse.2.cursor.farthestMiss = parser.forgetful.parse.2.cursor.farthestMiss ∧
      parser.parse.2.cursor.backtracks.reverse.Sublist
        parser.forgetful.parse.2.cursor.backtracks.reverse := by
  intro parser
  obtain ⟨same, m⟩ := parser.setting.recognize_forgetful
  refine ⟨?_, m.position_eq, m.farthestMiss_eq, m.backtracks_sublist.reverse⟩
  rw [Parser.verdict_parse, Parser.verdict_parse, same, Setting.verdict_forgetful m]
  rfl

end AtomFrontEnd

import AtomFrontEnd.Proofs.Reachable
import Mathlib.Data.Multiset.DershowitzManna
import Mathlib.Data.Prod.Lex

/-!
Why a parse comes to an end.

A production that goes back to its start reads the same tokens again, so that what is
left to read does not shrink from step to step. What shrinks is this. An activation has
so many tokens ahead of where it began, up to the first end, and its production has a
rank; every call is of an activation with fewer tokens ahead, or with as many and of
lower rank (`State.Sound.extent_lt`). And each step takes an activation on to a smaller
rest of its body. So if all activations are weighed that are at work or wait, a step
replaces some of the weights by smaller ones, of which there may be more
(`State.Sound.remaining_lt`). There is no endless descent in this order.

None of this asks whether finished operands are remembered: it holds of the parse that
finds out everything again just as well.
-/

namespace AtomFrontEnd

variable {s : Setting} {t u : State} {a : Activation}

/-! ## Weights -/

def Command.size : Command → Nat
  | finish _ => 1
  | fail _ => 1
  | token _ hit miss => hit.size + miss.size + 1
  | call _ hit miss => hit.size + miss.size + 1
  | rewind next => next.size + 1

theorem Command.size_pos (k : Command) : 0 < k.size := by
  cases k <;> exact Nat.succ_pos _

theorem Command.size_choose_lt (matched : Bool) (hit miss : Command) :
    (choose matched hit miss).size < hit.size + miss.size := by
  cases matched with
  | true => exact Nat.lt_add_of_pos_right miss.size_pos
  | false => exact Nat.lt_add_of_pos_left hit.size_pos

/-- The tokens ahead of the start of an activation, up to the first end, and then the rank
of its production. -/
def Setting.extent (s : Setting) (a : Activation) : Nat ×ₗ Nat :=
  toLex (s.tokens.firstEnd - a.start, a.production.rank)

/-- The extent of an activation, and then how much of its body is left. -/
def Setting.weight (s : Setting) (a : Activation) (size : Nat) : (Nat ×ₗ Nat) ×ₗ Nat :=
  toLex (s.extent a, size)

/-- The weight of a call that waits: either way to go on may be left. -/
def Setting.pendingWeight (s : Setting) (call : Pending) : (Nat ×ₗ Nat) ×ₗ Nat :=
  s.weight call.caller (call.hit.size + call.miss.size)

/-- The weights of all activations that are at work or wait. -/
def State.remaining (s : Setting) (t : State) : Multiset ((Nat ×ₗ Nat) ×ₗ Nat) :=
  .ofList (s.weight t.activation t.command.size :: t.pending.map s.pendingWeight)

theorem Setting.weight_lt_of_size {m n : Nat} (h : m < n) : s.weight a m < s.weight a n :=
  Prod.Lex.toLex_lt_toLex.mpr (.inr ⟨rfl, h⟩)

theorem Setting.weight_lt_of_extent {b : Activation} {m n : Nat} (h : s.extent b < s.extent a) :
    s.weight b m < s.weight a n :=
  Prod.Lex.toLex_lt_toLex.mpr (.inl h)

theorem State.Sound.extent_lt {p : Production} {hit miss : Command} (h : t.Sound s)
    (e : t.command = .call p hit miss) :
    s.extent ⟨p, t.cursor.position⟩ < s.extent t.activation := by
  have onTrack := h.onTrack
  rw [e] at onTrack
  have inside := h.confined.position_le
  have le := onTrack.start_le
  refine Prod.Lex.toLex_lt_toLex.mpr ?_
  rcases onTrack.lower with further | lower
  · left
    show s.tokens.firstEnd - t.cursor.position < s.tokens.firstEnd - t.activation.start
    omega
  · by_cases further : t.activation.start < t.cursor.position
    · left
      show s.tokens.firstEnd - t.cursor.position < s.tokens.firstEnd - t.activation.start
      omega
    · right
      refine ⟨?_, lower⟩
      show s.tokens.firstEnd - t.cursor.position = s.tokens.firstEnd - t.activation.start
      omega

/-! ## Steps take weight away -/

/-- Elements may be replaced by any number of smaller ones. -/
theorem isDershowitzMannaLT_append {α : Type} [Preorder α] (less more rest : List α)
    (nonempty : more ≠ []) (h : ∀ x ∈ less, ∃ y ∈ more, x < y) :
    (Multiset.ofList (less ++ rest)).IsDershowitzMannaLT (.ofList (more ++ rest)) :=
  ⟨.ofList rest, .ofList less, .ofList more, by simpa using nonempty,
    Multiset.coe_eq_coe.mpr List.perm_append_comm, Multiset.coe_eq_coe.mpr List.perm_append_comm, h⟩

theorem isDershowitzMannaLT_cons {α : Type} [Preorder α] {x y : α} (rest : List α) (h : x < y) :
    (Multiset.ofList (x :: rest)).IsDershowitzMannaLT (.ofList (y :: rest)) :=
  isDershowitzMannaLT_append [x] [y] rest (by simp) (by simpa using h)

theorem State.Sound.remaining_lt (h : t.Sound s) (e : State.Moves s t u) :
    (u.remaining s).IsDershowitzMannaLT (t.remaining s) := by
  cases e with
  | @returned a matched c call pending =>
    have less := s.weight_lt_of_size (a := call.caller)
      (Command.size_choose_lt matched call.hit call.miss)
    refine isDershowitzMannaLT_append [_] [_, _] (pending.map s.pendingWeight) (by simp) ?_
    simp only [List.mem_singleton, forall_eq]
    exact ⟨_, List.mem_cons_of_mem _ List.mem_cons_self, less⟩
  | taken =>
    refine isDershowitzMannaLT_cons _ (s.weight_lt_of_size ?_)
    simp only [Command.size]
    omega
  | missed =>
    refine isDershowitzMannaLT_cons _ (s.weight_lt_of_size ?_)
    simp only [Command.size]
    omega
  | @recalled a p hit miss c matched c' pending known =>
    have less := Nat.lt_succ_of_lt (Command.size_choose_lt matched hit miss)
    exact isDershowitzMannaLT_cons _ (s.weight_lt_of_size less)
  | @entered a p hit miss c pending unknown =>
    have waiting : s.pendingWeight ⟨a, hit, miss⟩ < s.weight a (Command.call p hit miss).size :=
      s.weight_lt_of_size (Nat.lt_succ_self _)
    have called := s.weight_lt_of_extent (m := (rules s.structTypes p).size)
      (n := (Command.call p hit miss).size) (h.extent_lt rfl)
    refine isDershowitzMannaLT_append [_, _] [_] (pending.map s.pendingWeight) (by simp) ?_
    simp only [List.mem_cons, List.not_mem_nil, or_false, exists_eq_left, forall_eq_or_imp, forall_eq]
    exact ⟨called, waiting⟩
  | rewound => exact isDershowitzMannaLT_cons _ (s.weight_lt_of_size (Nat.lt_succ_self _))

theorem Setting.Reaches.acc (h : s.Reaches t) : Acc (State.Next s) t := by
  have descends : WellFounded (InvImage Multiset.IsDershowitzMannaLT (State.remaining s)) :=
    InvImage.wf _ Multiset.wellFounded_isDershowitzMannaLT
  induction t using descends.induction with
  | _ t ih =>
    refine ⟨_, fun u e => ih u ?_ (h.next e)⟩
    exact h.sound.remaining_lt (State.step_eq_inl_iff.mp e)

/-- Every parse comes to an end, whether or not finished operands are remembered. In every
state that it goes through, a call is of an activation with fewer tokens ahead up to the
first end than its caller, or with as many and of lower rank. Every step leaves less
remaining, in an order without endless descent. So the steps do not go on for ever, and the
machine stops with the answer. -/
theorem parse_terminates (tokens : Array Token) (structTypes recalling : Bool) :
    let s : Setting := { tokens := .ofArray tokens, structTypes, recalling }
    (∀ t, s.Reaches t →
      (∀ p hit miss, t.command = .call p hit miss →
        s.extent ⟨p, t.cursor.position⟩ < s.extent t.activation) ∧
      (∀ u, t.step s = .inl u → (u.remaining s).IsDershowitzMannaLT (t.remaining s)) ∧
      Acc (State.Next s) t) ∧
    State.Stops s (.call s .unit {}) s.recognize := by
  intro s
  refine ⟨fun t reached => ⟨?_, ?_, reached.acc⟩, s.stops_recognize⟩
  · exact fun p hit miss e => reached.sound.extent_lt e
  · exact fun u e => reached.sound.remaining_lt (State.step_eq_inl_iff.mp e)

/-- Without a memory, the first call of a parse and the step into it. -/
theorem parse_terminates_first_step :
    let tokens : Array Token := #[⟨.symbol .leftParen, "(", 1⟩, ⟨.identifier, "x", 1⟩]
    let s : Setting := ⟨.ofArray tokens, false, false⟩
    let t : State := .call s .unit {}
    ∃ hit miss u, s.Reaches t ∧ t.command = .call .structDef hit miss ∧ t.step s = .inl u ∧
      s.extent ⟨.structDef, 0⟩ < s.extent ⟨.unit, 0⟩ ∧
      (u.remaining s).IsDershowitzMannaLT (t.remaining s) := by
  intro tokens s t
  obtain ⟨lower, less, -⟩ := (parse_terminates tokens false false).1 t .start
  exact ⟨_, _, _, .start, rfl, rfl, lower .structDef _ _ rfl, less _ rfl⟩

end AtomFrontEnd

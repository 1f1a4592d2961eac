import AtomFrontEnd.Proofs.Viability

/-!
Where tokens were looked for and not found.

The farthest miss only ever grows (`Run.farthestMiss_le`), and no token is looked
for past the first end (`Run.within`). While nothing has failed for good, a token
that is missed stands after a viable beginning: some token could have stood there
(`Run.continues_of_missed`). This holds of every attempt, also of those that were
given up, so it does not matter to which of them the farthest miss belongs.
-/

namespace AtomFrontEnd

variable {s : Setting} {a : Activation} {k : Command} {c d : Cursor} {o : Outcome}

theorem Run.farthestMiss_le (hs : s.recalling = false) (h : Run s a k c o d) :
    c.farthestMiss ≤ d.farthestMiss := by
  induction h with
  | finish => exact Nat.le_refl _
  | fail => exact Nat.le_refl _
  | taken _ _ ih => simpa using ih
  | missed _ _ ih => exact Nat.le_trans (Nat.le_max_left ..) ih
  | rewound _ ih => simpa using ih
  | recalled known _ _ => exact absurd known (by simp [Cursor.lookup_of_forgetful hs])
  | entered _ _ _ ihBody ihRest =>
    rw [Cursor.farthestMiss_record] at ihRest
    exact Nat.le_trans ihBody ihRest
  | aborted _ _ ihBody => exact ihBody

/-- A token that was missed stays below the farthest miss. -/
theorem Run.position_le_of_missed (hs : s.recalling = false) (h : Run s a k c.miss o d) :
    c.position ≤ d.farthestMiss :=
  calc c.position
      ≤ max c.farthestMiss c.position := Nat.le_max_right ..
    _ = c.miss.farthestMiss := rfl
    _ ≤ d.farthestMiss := h.farthestMiss_le hs

theorem Run.within (hs : s.recalling = false) (h : Run s a k c o d)
    (start : a.start ≤ s.tokens.firstEnd) (position : c.position ≤ s.tokens.firstEnd)
    (farthest : c.farthestMiss ≤ s.tokens.firstEnd) :
    d.position ≤ s.tokens.firstEnd ∧ d.farthestMiss ≤ s.tokens.firstEnd := by
  induction h with
  | finish => exact ⟨position, farthest⟩
  | fail => exact ⟨position, farthest⟩
  | @taken a kind hit miss c o d here _ ih =>
    rw [Cursor.farthestMiss_advance] at ih
    refine ih start ?_ farthest
    by_cases isEnd : kind = .endOfInput
    · subst isEnd
      exact position
    · rw [Cursor.position_advance isEnd]
      refine Nat.lt_of_le_of_ne position fun e => isEnd ?_
      rw [← here, e, s.tokens.kindAt_firstEnd]
  | missed _ _ ih => exact ih start position (Nat.max_le.mpr ⟨farthest, position⟩)
  | rewound _ ih =>
    rw [Cursor.position_rewind, Cursor.farthestMiss_rewind] at ih
    exact ih start start farthest
  | recalled known _ _ => exact absurd known (by simp [Cursor.lookup_of_forgetful hs])
  | entered _ _ _ ihBody ihRest =>
    rw [Cursor.position_record, Cursor.farthestMiss_record] at ihRest
    obtain ⟨position', farthest'⟩ := ihBody position position farthest
    exact ihRest start position' farthest'
  | aborted _ _ ihBody => exact ihBody position position farthest

/-! ## Misses come after viable beginnings -/

theorem Run.farthestMiss_typeSpec {b matched : Bool}
    (h : Run s a (rules b .typeSpec) c (.finished matched) d) :
    d.farthestMiss ≤ max c.farthestMiss c.position := by
  rcases h.typeSpec_cases with ⟨-, -, bound, -⟩ | ⟨-, ⟨-, same⟩ | ⟨e, -⟩⟩
  · exact bound
  · exact Nat.le_of_eq same
  · cases e

/-- Whether neither the command nor what it calls looks for the end of the input. -/
def Command.endless : Command → Bool
  | finish _ => true
  | fail _ => true
  | token kind hit miss => kind != .endOfInput && hit.endless && miss.endless
  | call q hit miss => q != .unit && hit.endless && miss.endless
  | rewind next => next.endless

theorem endless_rules (structTypes : Bool) {p : Production} (hp : p ≠ .unit) :
    (rules structTypes p).endless = true := by
  cases structTypes <;> cases p with
  | binary l | moreOperands l => cases l <;> decide
  | unit => exact absurd rfl hp
  | _ => decide

/-- With `u` behind it, the command admits a sequence that begins with `v`, and one that goes on
after it if the end is not looked for. -/
def Command.Outlasts (structTypes : Bool) (k : Command) (u v : List TokenKind) : Prop :=
  ∃ rest, (k.endless = true → rest ≠ []) ∧ k.Admits structTypes u (v ++ rest)

namespace Command

variable {b : Bool} {hit miss : Command} {u v w : List TokenKind} {kind : TokenKind} {q : Production}

theorem Continues.outlasts (h : k.Continues b u (v ++ w)) (more : w ≠ []) : k.Outlasts b u v := by
  obtain ⟨rest, h⟩ := h
  rw [List.append_assoc] at h
  exact ⟨w ++ rest, fun _ => List.append_ne_nil_of_left_ne_nil more rest, h⟩

theorem outlasts_token (hHit : hit.completable = true) (miss : Command) (u w : List TokenKind) :
    (token kind hit miss).Outlasts b (u ++ w) u := by
  by_cases isEnd : kind = .endOfInput
  · have goesOn := continues_of_completable b (k := token kind hit miss)
      (by simp [completable, hHit]) (u ++ w)
    obtain ⟨rest, h⟩ := goesOn.of_append
    exact ⟨rest, by simp [endless, isEnd], h⟩
  · have goesOn := continues_token (b := b) hHit isEnd miss (u ++ w)
    rw [List.append_assoc] at goesOn
    exact goesOn.outlasts (by simp)

theorem outlasts_call (hHit : hit.completable = true) (h : Derives b q.form (v ++ w))
    (more : q ≠ .unit → w ≠ []) (miss : Command) (u : List TokenKind) :
    (call q hit miss).Outlasts b u (u ++ v) := by
  obtain ⟨rest, after⟩ := continues_of_completable b hHit (u ++ (v ++ w))
  refine ⟨w ++ rest, fun endless => ?_, .inl ⟨v ++ w, h, ?_⟩⟩
  · simp only [Command.endless, Bool.and_eq_true, bne_iff_ne] at endless
    exact List.append_ne_nil_of_left_ne_nil (more endless.1.1) rest
  · simp only [List.append_assoc] at after ⊢
    exact after

end Command

/-- Wherever a production has missed a token for the first time so far on, what it admits goes on
after what stands from its start up to there, if the production does not fail. -/
theorem Run.outlasts_of_missed (hs : s.recalling = false) (h : Run s a k c o d)
    (hk : k.hopeful = true) (tidy : k.tidy = true) (le : a.start ≤ c.position) {matched : Bool}
    (finished : o = .finished matched) {i : Nat} (new : c.farthestMiss < i)
    (reached : i ≤ d.farthestMiss) (ge : a.start ≤ i) :
    k.Outlasts s.structTypes (s.tokens.slice a.start c.position) (s.tokens.slice a.start i) := by
  induction h generalizing matched with
  | finish => omega
  | fail => cases finished
  | taken here _ ih =>
    simp only [Command.hopeful, Bool.and_eq_true] at hk
    simp only [Command.tidy, Bool.and_eq_true] at tidy
    rw [Cursor.farthestMiss_advance] at ih
    obtain ⟨rest, more, h⟩ := ih hk.1.2 tidy.1 (Cursor.le_position_advance _ le) finished new reached ge
    refine ⟨rest, fun endless => more ?_, h.of_taken here le⟩
    simp only [Command.endless, Bool.and_eq_true] at endless
    exact endless.1.2
  | @missed a kind hit miss c o d other rest ih =>
    simp only [Command.hopeful, Bool.and_eq_true, Bool.or_eq_true] at hk
    simp only [Command.tidy, Bool.and_eq_true] at tidy
    obtain ⟨⟨completable, -⟩, hopeful | demands⟩ := hk
    · by_cases near : i ≤ c.position
      · rw [← TokenSequence.slice_append ge near]
        exact Command.outlasts_token completable miss _ _
      · have new' : c.miss.farthestMiss < i := by
          rw [Cursor.farthestMiss_miss]
          omega
        obtain ⟨rest, more, h⟩ := ih hopeful tidy.2 le finished new' reached ge
        refine ⟨rest, fun endless => more ?_, .inr h⟩
        simp only [Command.endless, Bool.and_eq_true] at endless
        exact endless.2
    · obtain ⟨missing, -, rfl⟩ := Command.eq_fail_of_demands demands
      cases rest
      cases finished
  | rewound _ ih =>
    rw [Cursor.farthestMiss_rewind] at ih
    obtain ⟨rest, more, h⟩ := ih hk tidy (Nat.le_of_eq (Cursor.position_rewind ..).symm) finished new
      reached ge
    exact ⟨rest, more, h.of_rewound⟩
  | recalled known _ _ => exact absurd known (by simp [Cursor.lookup_of_forgetful hs])
  | @entered a p hit miss c matched' c' o d _ body rest ihBody ihRest =>
    simp only [Command.hopeful, Bool.and_eq_true, Bool.or_eq_true, Bool.not_eq_true'] at hk
    simp only [Command.tidy, Bool.and_eq_true, Bool.or_eq_true, Bool.not_eq_true'] at tidy
    obtain ⟨⟨completable, hopeful⟩, hMiss⟩ := hk
    obtain ⟨⟨tidyHit, tidyMiss⟩, straying⟩ := tidy
    rw [Cursor.position_record, Cursor.farthestMiss_record] at ihRest
    have bodyLe := body.start_le hs
    have le' := Nat.le_trans le bodyLe
    by_cases near : i < c.position
    · have goesOn := Command.continues_of_completable s.structTypes
        (k := .call p hit miss) (by simp [Command.completable, completable])
        (s.tokens.slice a.start c.position)
      rw [← TokenSequence.slice_append ge (Nat.le_of_lt near)] at goesOn ⊢
      refine goesOn.outlasts (List.ne_nil_of_length_pos ?_)
      rw [TokenSequence.length_slice]
      omega
    by_cases inside : i ≤ c'.farthestMiss
    · -- the miss lies in the called production, or it is where a type begins
      obtain ⟨w, more, part⟩ : ∃ w, (p ≠ .unit → w ≠ []) ∧
          Derives s.structTypes p.form (s.tokens.slice c.position i ++ w) := by
        by_cases isType : p = .typeSpec
        · subst isType
          have bound := body.farthestMiss_typeSpec
          obtain rfl : i = c.position := by omega
          refine ⟨[.keyword .kwInt], fun _ => List.cons_ne_nil _ _, ?_⟩
          rw [TokenSequence.slice_self]
          exact derives_typeSpec_iff.mpr (.inl rfl)
        · obtain ⟨w, more, h⟩ := ihBody (hopeful_rules _ _ isType) (tidy_rules _ _) (Nat.le_refl _)
            rfl new inside (Nat.le_of_not_lt near)
          rw [TokenSequence.slice_self, admits_rules_iff] at h
          exact ⟨w, fun notUnit => more (endless_rules _ notUnit), h⟩
      have goesOn := Command.outlasts_call completable part more miss
        (s.tokens.slice a.start c.position)
      rw [TokenSequence.slice_append le (Nat.le_of_not_lt near)] at goesOn
      exact goesOn
    have new' := Nat.lt_of_not_le inside
    cases matched' with
    | true =>
      obtain ⟨rest, more, h⟩ := ihRest hopeful tidyHit le' finished new' reached ge
      refine ⟨rest, fun endless => more ?_, h.of_matched le bodyLe (body.derives hs)⟩
      simp only [Command.endless, Bool.and_eq_true] at endless
      exact endless.1.2
    | false =>
      rcases hMiss with hopefulMiss | ⟨-, demands⟩
      · obtain ⟨rest, more, h⟩ := ihRest hopefulMiss tidyMiss le' finished new' reached ge
        refine ⟨rest, fun endless => more ?_, h.of_refused straying body⟩
        simp only [Command.endless, Bool.and_eq_true] at endless
        exact endless.2
      · obtain ⟨missing, rfl⟩ := Command.eq_fail_of_demandsPart demands
        cases rest
        cases finished
  | aborted => cases finished

/-- Up to the farthest token that a production has missed, what stands from its
start is a beginning of what it admits, if the production does not fail. -/
theorem Run.continues_of_missed (hs : s.recalling = false) (h : Run s a k c o d)
    (hk : k.hopeful = true) (tidy : k.tidy = true) (le : a.start ≤ c.position) {matched : Bool}
    (finished : o = .finished matched) {i : Nat} (new : c.farthestMiss < i)
    (reached : i ≤ d.farthestMiss) (ge : a.start ≤ i) :
    k.Continues s.structTypes (s.tokens.slice a.start c.position) (s.tokens.slice a.start i) := by
  obtain ⟨rest, -, h⟩ := h.outlasts_of_missed hs hk tidy le finished new reached ge
  exact ⟨rest, h⟩

end AtomFrontEnd

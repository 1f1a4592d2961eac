import AtomFrontEnd.Recognizer.Totality

/-!
Where a production that does not apply leaves the cursor.

A production that refuses after taking tokens has gone back to its start first.
`Command.givesBack` checks this of a body, and all bodies pass but two: a unit
that stalls stays where it stalled, and `struct` with a name stays taken when it
is refused as a type. Their callers go back in their stead, so that every other
production that refuses ends where it began (`Run.position_of_refused`). Some
productions, the tails of loops, never refuse at all (`Run.ne_refused`).
-/

namespace AtomFrontEnd

namespace Production

/-- Whether the production matches or fails, and never refuses. -/
def insists : Production → Bool
  | fields | moreVars | moreParams | blockItems | moreOperands _ | suffixes | moreArguments => true
  | _ => false

/-- Whether the production may refuse away from its start. -/
def strays : Production → Bool
  | unit | typeSpec => true
  | _ => false

end Production

namespace Command

/-- Whether the command never refuses, if those productions do not that insist. -/
def persistent : Command → Bool
  | finish matched => matched
  | fail _ => true
  | token _ hit miss => hit.persistent && miss.persistent
  | call q hit miss => hit.persistent && (q.insists || miss.persistent)
  | rewind next => next.persistent

/-- Whether the command refuses only at the start of its production; `away` says
that the cursor may have left it. -/
def givesBack : Bool → Command → Bool
  | away, finish matched => matched || !away
  | _, fail _ => true
  | away, token _ hit miss => hit.givesBack true && miss.givesBack away
  | away, call q hit miss =>
    hit.givesBack true && (q.insists || miss.givesBack (away || q.strays))
  | _, rewind next => next.givesBack false

end Command

theorem persistent_rules (structTypes : Bool) (p : Production) (h : p.insists = true) :
    (rules structTypes p).persistent = true := by
  cases structTypes <;> cases p with
  | moreOperands l => cases l <;> rfl
  | _ => first | rfl | cases h

theorem givesBack_rules (structTypes : Bool) (p : Production) (h : p.strays = false) :
    (rules structTypes p).givesBack false = true := by
  cases structTypes <;> cases p with
  | binary l => cases l <;> rfl
  | moreOperands l => cases l <;> rfl
  | _ => first | rfl | cases h

variable {s : Setting} {a : Activation} {k : Command} {c d : Cursor} {o : Outcome}

theorem Cursor.lookup_refused {p : Production} (h : c.lookup s p = some (false, d)) : d = c := by
  unfold Cursor.lookup at h
  split at h
  · split at h
    · cases h
    · exact (Prod.mk.inj (Option.some.inj h)).2.symm
    · cases h
  · cases h

theorem Cursor.eq_unary_of_lookup {p : Production} {result : Bool × Cursor}
    (h : c.lookup s p = some result) : p = .unary := by
  unfold Cursor.lookup at h
  split at h
  · exact And.right ‹_›
  · cases h

theorem Run.ne_refused_of_persistent (h : Run s a k c o d) (hk : k.persistent = true) :
    o ≠ .finished false := by
  induction h with
  | finish =>
    intro e
    obtain rfl := Outcome.finished.inj e
    cases hk
  | fail => exact fun e => by cases e
  | taken _ _ ih =>
    simp only [Command.persistent, Bool.and_eq_true] at hk
    exact ih hk.1
  | missed _ _ ih =>
    simp only [Command.persistent, Bool.and_eq_true] at hk
    exact ih hk.2
  | rewound _ ih => exact ih hk
  | @recalled _ p _ _ _ matched _ _ _ known _ ih =>
    simp only [Command.persistent, Bool.and_eq_true, Bool.or_eq_true] at hk
    cases matched with
    | true => exact ih hk.1
    | false =>
      obtain rfl := Cursor.eq_unary_of_lookup known
      exact ih (hk.2.resolve_left fun insists => by cases insists)
  | @entered _ _ _ _ _ matched _ _ _ _ _ _ ihBody ihRest =>
    simp only [Command.persistent, Bool.and_eq_true, Bool.or_eq_true] at hk
    cases matched with
    | true => exact ihRest hk.1
    | false =>
      exact ihRest (hk.2.resolve_left fun insists => ihBody (persistent_rules _ _ insists) rfl)
  | aborted => exact fun e => by cases e

theorem Run.ne_refused {p : Production} {i : Nat} (hp : p.insists = true)
    (h : Run s ⟨p, i⟩ (rules s.structTypes p) c o d) : o ≠ .finished false :=
  h.ne_refused_of_persistent (persistent_rules _ _ hp)

/-- A command that gives back what it took refuses where its production began. -/
theorem Run.position_of_givesBack (h : Run s a k c o d) {away : Bool}
    (hk : k.givesBack away = true) (home : away = false → c.position = a.start)
    (refused : o = .finished false) : d.position = a.start := by
  induction h generalizing away with
  | finish =>
    obtain rfl := Outcome.finished.inj refused
    exact home (by simpa [Command.givesBack] using hk)
  | fail => cases refused
  | taken _ _ ih =>
    simp only [Command.givesBack, Bool.and_eq_true] at hk
    exact ih hk.1 (fun e => by cases e) refused
  | missed _ _ ih =>
    simp only [Command.givesBack, Bool.and_eq_true] at hk
    exact ih hk.2 home refused
  | rewound _ ih => exact ih hk (fun _ => Cursor.position_rewind ..) refused
  | @recalled _ p _ miss c matched c' _ _ known _ ih =>
    simp only [Command.givesBack, Bool.and_eq_true, Bool.or_eq_true] at hk
    cases matched with
    | true => exact ih hk.1 (fun e => by cases e) refused
    | false =>
      obtain rfl := Cursor.eq_unary_of_lookup known
      obtain rfl := Cursor.lookup_refused known
      have gives : miss.givesBack away = true := by
        simpa [Production.insists, Production.strays] using hk.2
      exact ih gives home refused
  | @entered _ p _ _ c matched c' _ _ _ body _ ihBody ihRest =>
    simp only [Command.givesBack, Bool.and_eq_true, Bool.or_eq_true] at hk
    cases matched with
    | true => exact ihRest hk.1 (fun e => by cases e) refused
    | false =>
      refine ihRest (hk.2.resolve_left fun insists => body.ne_refused insists rfl) ?_ refused
      intro stay
      simp only [Bool.or_eq_false_iff] at stay
      rw [Cursor.position_record, ihBody (givesBack_rules _ _ stay.2) (fun _ => rfl) rfl]
      exact home stay.1
  | aborted => cases refused

/-- A production that refuses ends where it began, unless it is one of two. -/
theorem Run.position_of_refused {p : Production} (hp : p.strays = false)
    (h : Run s ⟨p, c.position⟩ (rules s.structTypes p) c (.finished false) d) :
    d.position = c.position :=
  h.position_of_givesBack (givesBack_rules _ _ hp) (fun _ => rfl) rfl

end AtomFrontEnd

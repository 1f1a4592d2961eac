import AtomFrontEnd.Token.Sequence
import Mathlib.Data.List.TakeWhile

/-!
The kinds of a stretch of tokens.

`TokenSequence.slice` cuts the kinds between two positions out of a sequence, and
`TokenSequence.Shows` says that given kinds stand at a position. A list of kinds
is that of some tokens, too (`TokenSequence.ofKinds`), whose texts and lines are
of no interest.
-/

namespace AtomFrontEnd

namespace TokenSequence

def kinds (ts : TokenSequence) : List TokenKind := ts.toList.map Token.kind

/-- The kinds up to the first end token, that one included. -/
def sentence (ts : TokenSequence) : List TokenKind := ts.kinds.take (ts.firstEnd + 1)

/-- The kinds from one position up to another, which is left out. -/
def slice (ts : TokenSequence) (i j : Nat) : List TokenKind :=
  (List.range' i (j - i)).map ts.kindAt

/-- At the position stand these kinds. -/
def Shows (ts : TokenSequence) : Nat → List TokenKind → Prop
  | _, [] => True
  | i, kind :: rest => ts.kindAt i = kind ∧ ts.Shows (i + 1) rest

variable {ts : TokenSequence} {i j k : Nat} {u v w : List TokenKind}

@[simp] theorem length_slice (ts : TokenSequence) (i j : Nat) : (ts.slice i j).length = j - i := by
  simp [slice]

@[simp] theorem slice_self (ts : TokenSequence) (i : Nat) : ts.slice i i = [] := by
  simp [slice]

theorem slice_append (hij : i ≤ j) (hjk : j ≤ k) : ts.slice i j ++ ts.slice j k = ts.slice i k := by
  unfold slice
  rw [← List.map_append]
  congr 1
  have e : k - i = (j - i) + (k - j) := by omega
  rw [e, ← List.range'_append]
  congr 2
  omega

theorem slice_succ (h : i ≤ j) : ts.slice i (j + 1) = ts.slice i j ++ [ts.kindAt j] := by
  rw [← slice_append h (Nat.le_succ j)]
  simp [slice]

theorem slice_eq_cons (h : i < j) : ts.slice i j = ts.kindAt i :: ts.slice (i + 1) j := by
  rw [← slice_append (Nat.le_succ i) h, slice_succ (Nat.le_refl i), slice_self]
  rfl

theorem slice_getElem? {n : Nat} (h : i + n < j) : (ts.slice i j)[n]? = some (ts.kindAt (i + n)) := by
  have inside : n < j - i := by omega
  simp [slice, inside]

theorem shows_append : ts.Shows i (u ++ v) ↔ ts.Shows i u ∧ ts.Shows (i + u.length) v := by
  induction u generalizing i with
  | nil => simp [Shows]
  | cons kind u ih =>
    have e : i + 1 + u.length = i + (u.length + 1) := by omega
    simp only [List.cons_append, Shows, ih, List.length_cons, e, and_assoc]

theorem shows_iff : ts.Shows i w ↔ ts.slice i (i + w.length) = w := by
  induction w generalizing i with
  | nil => simp [Shows]
  | cons kind w ih =>
    have e : i + 1 + w.length = i + (w.length + 1) := by omega
    simp only [Shows, ih, List.length_cons, slice_eq_cons (Nat.lt_add_of_pos_right w.length.succ_pos),
      List.cons.injEq, e]

theorem shows_slice (ts : TokenSequence) (i j : Nat) : ts.Shows i (ts.slice i j) := by
  rw [shows_iff, length_slice]
  by_cases h : i ≤ j
  · rw [Nat.add_sub_cancel' h]
  · rw [Nat.sub_eq_zero_of_le (by omega)]
    simp [slice, Nat.sub_eq_zero_of_le (Nat.le_of_not_le h)]

/-! ## Slices from the first token -/

theorem kinds_getElem? (h : i < ts.size) : ts.kinds[i]? = some (ts.kindAt i) := by
  rw [kinds, List.getElem?_map, ts.toList_getElem? h]
  rfl

theorem take_kinds (h : j ≤ ts.size) : ts.kinds.take j = ts.slice 0 j := by
  apply List.ext_getElem?
  intro n
  by_cases hn : n < j
  · rw [List.getElem?_take_of_lt hn, kinds_getElem? (by omega)]
    simp [slice, hn]
  · have past : (ts.kinds.take j).length ≤ n := by
      rw [List.length_take]
      omega
    have past' : (ts.slice 0 j).length ≤ n := by
      rw [length_slice]
      omega
    rw [List.getElem?_eq_none past, List.getElem?_eq_none past']

theorem sentence_eq (ts : TokenSequence) :
    ts.sentence = ts.slice 0 ts.firstEnd ++ [.endOfInput] := by
  rw [sentence, take_kinds ts.firstEnd_lt_size, slice_succ (Nat.zero_le _), ts.kindAt_firstEnd]

@[simp] theorem length_sentence (ts : TokenSequence) : ts.sentence.length = ts.firstEnd + 1 := by
  rw [sentence_eq, List.length_append, length_slice, List.length_singleton, Nat.sub_zero]

theorem sentence_getElem? (ts : TokenSequence) (h : i ≤ ts.firstEnd) :
    ts.sentence[i]? = some (ts.kindAt i) := by
  rw [sentence, List.getElem?_take_of_lt (Nat.lt_succ_of_le h),
    kinds_getElem? (Nat.lt_of_le_of_lt h ts.firstEnd_lt_size)]

/-! ## Tokens of a list -/

theorem sentence_eq_takeWhile (ts : TokenSequence) :
    ts.sentence = ts.kinds.takeWhile (· != .endOfInput) ++ [.endOfInput] := by
  unfold sentence kinds toList firstEnd
  rw [List.map_append, List.map_singleton, ts.kind_closing]
  generalize ts.body.toList = l
  induction l with
  | nil => rfl
  | cons t rest ih =>
    by_cases h : t.kind = .endOfInput
    · simp [h]
    · simpa [h] using ih

theorem sentence_ofArray (tokens : Array Token) :
    (ofArray tokens).sentence =
      (tokens.toList.map Token.kind).takeWhile (· != .endOfInput) ++ [.endOfInput] := by
  rw [sentence_eq_takeWhile, kinds, toList_ofArray]
  split
  · rfl
  · rw [List.map_append, List.map_singleton, List.takeWhile_append]
    split
    · rename_i whole
      rw [(List.takeWhile_prefix _).eq_of_length whole]
      simp
    · rfl

/-- What a list is completed to ends with what its last part is completed to. -/
theorem ofArray_append (front back : Array Token) (h : back ≠ #[]) :
    (ofArray (front ++ back)).body = front ++ (ofArray back).body ∧
      (ofArray (front ++ back)).closing = (ofArray back).closing := by
  obtain ⟨rest, t, rfl⟩ := Array.exists_push_of_ne_empty h
  unfold ofArray
  simp only [Array.append_push, Array.back?_push]
  split <;> simp

theorem tokenAt_ofArray_append (front back : Array Token) (h : back ≠ #[]) (i : Nat) :
    (ofArray (front ++ back)).tokenAt (front.size + i) = (ofArray back).tokenAt i := by
  obtain ⟨body, closing⟩ := ofArray_append front back h
  rw [tokenAt, tokenAt, body, closing, Array.getElem?_append_right (by omega)]
  congr 2
  omega

/-- Tokens without an end token stand where they are put, before others or at the end. -/
theorem shows_ofArray_append {front : Array Token} (endless : ∀ t ∈ front, t.kind ≠ .endOfInput)
    (back : Array Token) : (ofArray (front ++ back)).Shows 0 (front.toList.map Token.kind) := by
  have shown := (ofArray (front ++ back)).shows_slice 0 (ofArray (front ++ back)).firstEnd
  have e := sentence_ofArray (front ++ back)
  rw [sentence_eq, Array.toList_append, List.map_append,
    List.takeWhile_append_of_pos (by simpa using endless)] at e
  rw [List.append_cancel_right e, shows_append] at shown
  exact shown.1

theorem sentence_ofArray_of_endless {tokens : Array Token}
    (endless : ∀ t ∈ tokens, t.kind ≠ .endOfInput) :
    (ofArray tokens).sentence = tokens.toList.map Token.kind ++ [.endOfInput] := by
  rw [sentence_ofArray, List.takeWhile_eq_self_iff.mpr (by simpa using endless)]

theorem firstEnd_ofArray {tokens : Array Token} (endless : ∀ t ∈ tokens, t.kind ≠ .endOfInput) :
    (ofArray tokens).firstEnd = tokens.size := by
  have e := congrArg List.length (sentence_ofArray_of_endless endless)
  rw [sentence_eq] at e
  simpa using e

/-! ## Tokens of given kinds -/

/-- Tokens of the given kinds, and an end token. -/
def ofKinds (w : List TokenKind) : TokenSequence :=
  ⟨(w.map fun kind => ⟨kind, "", 0⟩).toArray, .endAt 0, rfl⟩

theorem kindAt_ofKinds (w : List TokenKind) (i : Nat) :
    (ofKinds w).kindAt i = w[i]?.getD .endOfInput := by
  unfold kindAt tokenAt ofKinds
  by_cases h : i < w.length <;> simp [h]

theorem shows_ofKinds (u w : List TokenKind) : (ofKinds (u ++ w)).Shows u.length w := by
  induction w generalizing u with
  | nil => trivial
  | cons kind w ih =>
    refine ⟨by simp [kindAt_ofKinds], ?_⟩
    have h := ih (u ++ [kind])
    rw [List.append_assoc, List.length_append] at h
    exact h

end TokenSequence

end AtomFrontEnd

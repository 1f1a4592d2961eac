import AtomFrontEnd.Token

/-!
Token sequences: what a parser reads.

A sequence is a body and a closing token of kind end of input, so it is never
empty and a position past the body always finds the closing token. Any list of
tokens becomes a sequence: `TokenSequence.ofArray` takes a list that ends with
an end token as it is and completes any other with one (`toList_ofArray`).
An end token may also stand inside the body.
-/

namespace AtomFrontEnd

/-- Tokens, the last of which marks the end of the input. -/
structure TokenSequence where
  body : Array Token
  closing : Token
  kind_closing : closing.kind = .endOfInput

namespace TokenSequence

/-- The tokens in order, the closing one included. -/
def toList (ts : TokenSequence) : List Token := ts.body.toList ++ [ts.closing]

def size (ts : TokenSequence) : Nat := ts.body.size + 1

/-- The token at a position; past the body it is the closing one. -/
def tokenAt (ts : TokenSequence) (i : Nat) : Token := ts.body[i]?.getD ts.closing

def kindAt (ts : TokenSequence) (i : Nat) : TokenKind := (ts.tokenAt i).kind

/-- A list that does not end with an end token is completed with one, on the
line of its last token, or on line 1 if there is none. -/
def ofArray (tokens : Array Token) : TokenSequence :=
  match tokens.back? with
  | none => ⟨#[], .endAt 1, rfl⟩
  | some t =>
    if h : t.kind = .endOfInput then ⟨tokens.pop, t, h⟩ else ⟨tokens, .endAt t.line, rfl⟩

/-! ## Views -/

theorem toList_getElem? (ts : TokenSequence) {i : Nat} (h : i < ts.size) :
    ts.toList[i]? = some (ts.tokenAt i) := by
  unfold toList tokenAt size at *
  by_cases hi : i < ts.body.size
  · rw [List.getElem?_append_left (by simpa using hi)]
    simp [hi]
  · have : i = ts.body.size := by omega
    subst this
    simp

/-- Only a list that does not end with an end token gets one. -/
theorem toList_ofArray (tokens : Array Token) :
    (ofArray tokens).toList =
      if tokens.back?.any (·.kind == .endOfInput) then tokens.toList
      else tokens.toList ++ [.endAt ((tokens.back?.map Token.line).getD 1)] := by
  unfold ofArray
  split
  · rename_i none
    rw [Array.back?_eq_none_iff.mp none]
    rfl
  · rename_i t last
    obtain ⟨body, rfl⟩ := Array.back?_eq_some_iff.mp last
    split
    · rename_i isEnd
      simp [toList, isEnd]
    · rename_i other
      simp [toList, other]

/-! ## The first end token -/

/-- The position of the first end token. -/
def firstEnd (ts : TokenSequence) : Nat :=
  (ts.body.toList.takeWhile fun t => t.kind != .endOfInput).length

theorem firstEnd_le_size_body (ts : TokenSequence) : ts.firstEnd ≤ ts.body.size := by
  unfold firstEnd
  have := (List.takeWhile_sublist (l := ts.body.toList) fun t => t.kind != .endOfInput).length_le
  simpa using this

theorem firstEnd_lt_size (ts : TokenSequence) : ts.firstEnd < ts.size :=
  Nat.lt_succ_of_le ts.firstEnd_le_size_body

theorem toList_getElem?_of_le (ts : TokenSequence) {i : Nat} (h : i ≤ ts.firstEnd) :
    ts.toList[i]? = some (ts.tokenAt i) :=
  ts.toList_getElem? (Nat.lt_of_le_of_lt h ts.firstEnd_lt_size)

theorem kindAt_firstEnd (ts : TokenSequence) : ts.kindAt ts.firstEnd = .endOfInput := by
  unfold kindAt tokenAt firstEnd
  rw [← Array.getElem?_toList]
  generalize ts.body.toList = l
  induction l with
  | nil => simpa using ts.kind_closing
  | cons t rest ih =>
    by_cases h : t.kind = .endOfInput
    · simp [h]
    · simpa [h] using ih

theorem kindAt_ne_end (ts : TokenSequence) {i : Nat} (h : i < ts.firstEnd) :
    ts.kindAt i ≠ .endOfInput := by
  unfold kindAt tokenAt
  unfold firstEnd at h
  rw [← Array.getElem?_toList]
  generalize ts.body.toList = l at h ⊢
  induction l generalizing i with
  | nil => simp at h
  | cons t rest ih =>
    by_cases ht : t.kind = .endOfInput
    · simp [ht] at h
    · cases i with
      | zero => simpa using ht
      | succ i =>
        simp [ht] at h
        simpa using ih h

end TokenSequence

end AtomFrontEnd

import AtomFrontEnd.Proofs.Front
import Mathlib.Data.List.TakeWhile

/-!
How far each class of pieces reaches.

For each class there are two facts. What its length function takes from the front of a
text belongs to the class (the lemmas named `exists_`), and nothing at the front that
belongs to the class is longer. Literals and block comments have one mark that closes
them, so for these the length is the same whatever way the text is cut
(`quotedLength_of_closes`, `blockCommentLength_of_closes`). For runs of characters and
for numbers it is a bound (`length_le_runLength`, `Number.length_le`): the parts of a
number are taken greedily one after the other, and this loses nothing, because a
fraction or an exponent begins with no digit.
-/

namespace AtomFrontEnd

open Text

variable {p : Char → Bool} {c quote : Char} {l : Literal} {text following value cs : List Char}

/-! ## Runs -/

theorem runLength_append (following : List Char) (h : ∀ c ∈ text, p c = true) :
    runLength p (text ++ following) = text.length + runLength p following := by
  rw [runLength, List.takeWhile_append_of_pos h, List.length_append, runLength]

theorem runLength_cons (rest : List Char) (h : p c = true) :
    runLength p (c :: rest) = 1 + runLength p rest := by
  rw [runLength, List.takeWhile_cons_of_pos h, List.length_cons, Nat.add_comm, runLength]

theorem runLength_eq_zero (h : ∀ c ∈ following.head?, p c = false) :
    runLength p following = 0 := by
  cases following with
  | nil => rfl
  | cons c rest =>
    rw [runLength, List.takeWhile_cons_of_neg (by simp [h c rfl]), List.length_nil]

theorem exists_runLength (p : Char → Bool) (cs : List Char) :
    ∃ text following, cs = text ++ following ∧ runLength p cs = text.length ∧
      (∀ c ∈ text, p c = true) ∧ ∀ c ∈ following.head?, p c = false := by
  refine ⟨cs.takeWhile p, cs.dropWhile p, List.takeWhile_append_dropWhile.symm, rfl,
    fun c hc => List.mem_takeWhile_imp hc, fun c hc => ?_⟩
  have stop := List.head?_dropWhile_not p cs
  rw [Option.mem_def.mp hc] at stop
  exact stop

/-! ## What a mark closes -/

theorem quotedLength_of_closes (inside : quote ∉ value)
    (closed : Closes [quote] following value text) :
    quotedLength quote (text ++ following) = text.length + 1 := by
  have run : ∀ c ∈ value, (c != quote) = true := fun c hc =>
    bne_iff_ne.mpr fun e => inside (e ▸ hc)
  unfold quotedLength
  rcases closed with rfl | ⟨rfl, rfl⟩
  · have stop : runLength (· != quote) (quote :: following) = 0 := runLength_eq_zero (by simp)
    rw [List.append_assoc, List.singleton_append, runLength_append _ run, stop]
    simp
    omega
  · rw [runLength_append _ run]
    simp [runLength]
    omega

/-- Every text is the inside of a literal up to its quote, or all of it. -/
theorem exists_closes_quote (quote : Char) (rest : List Char) :
    ∃ text following value, rest = text ++ following ∧ quote ∉ value ∧
      Closes [quote] following value text := by
  obtain ⟨value, following, e, -, run, stop⟩ := exists_runLength (· != quote) rest
  have inside : quote ∉ value := fun h => by simpa using run quote h
  cases following with
  | nil => exact ⟨value, [], value, e, inside, .inr ⟨rfl, rfl⟩⟩
  | cons c following =>
    have closing : c = quote := by simpa using stop c rfl
    subst closing
    exact ⟨value ++ [c], following, value, by simp [e], inside, .inl rfl⟩

theorem Closes.cons {closing : List Char} (closed : Closes closing following value text)
    (c : Char) : Closes closing following (c :: value) (c :: text) := by
  rcases closed with rfl | ⟨rfl, rfl⟩
  · exact .inl rfl
  · exact .inr ⟨rfl, rfl⟩

/-- Inside a comment there is no closing mark, and what comes next does not complete one. -/
theorem blockCommentLength_append (n : Nat) (inside : ¬ ['*', '/'] <:+: value)
    (stop : ∀ c ∈ following.head?, c ≠ '/') :
    blockCommentLength n (value ++ following) =
      blockCommentLength (n + value.length) following := by
  induction value generalizing n with
  | nil => rfl
  | cons c value ih =>
    rw [List.infix_cons_iff, not_or] at inside
    have goesOn : ¬ (c == '*' && (value ++ following).head? == some '/') = true := by
      rw [Bool.and_eq_true, beq_iff_eq, beq_iff_eq]
      rintro ⟨rfl, next⟩
      cases value with
      | nil => exact stop _ next rfl
      | cons d value =>
        cases next
        exact inside.1 ⟨value, rfl⟩
    rw [List.cons_append, blockCommentLength, if_neg goesOn, ih _ inside.2, List.length_cons]
    congr 1
    omega

theorem blockCommentLength_of_closes (inside : ¬ ['*', '/'] <:+: value)
    (closed : Closes ['*', '/'] following value text) :
    blockCommentLength 0 (text ++ following) = text.length := by
  rcases closed with rfl | ⟨rfl, rfl⟩
  · rw [List.append_assoc, blockCommentLength_append 0 inside (by simp)]
    simp [blockCommentLength]
  · rw [blockCommentLength_append 0 inside (by simp)]
    simp [blockCommentLength]

theorem exists_closes_comment (cs : List Char) :
    ∃ text following value, cs = text ++ following ∧ ¬ ['*', '/'] <:+: value ∧
      Closes ['*', '/'] following value text := by
  induction cs with
  | nil => exact ⟨[], [], [], rfl, by simp, .inr ⟨rfl, rfl⟩⟩
  | cons c rest ih =>
    by_cases closing : ∃ following, c :: rest = '*' :: '/' :: following
    · obtain ⟨following, e⟩ := closing
      exact ⟨['*', '/'], following, [], e, by simp, .inl rfl⟩
    · obtain ⟨text, following, value, rfl, inside, closed⟩ := ih
      refine ⟨c :: text, following, c :: value, rfl, ?_, closed.cons c⟩
      rw [List.infix_cons_iff, not_or]
      refine ⟨fun ⟨rest, e⟩ => closing ?_, inside⟩
      cases e
      rcases closed with rfl | ⟨rfl, rfl⟩
      · exact ⟨_, rfl⟩
      · exact ⟨_, rfl⟩

/-! ## Numbers -/

theorem exists_sign (cs : List Char) :
    ∃ text following, cs = text ++ following ∧ signLength cs = text.length ∧
      text ∈ [[], ['+'], ['-']] := by
  unfold signLength
  split
  · exact ⟨['+'], _, rfl, rfl, by simp⟩
  · exact ⟨['-'], _, rfl, rfl, by simp⟩
  · exact ⟨[], _, rfl, rfl, by simp⟩

theorem exists_fraction (cs : List Char) :
    ∃ text following, cs = text ++ following ∧ fractionLength cs = text.length ∧ Fraction text := by
  unfold fractionLength
  split
  · rename_i rest
    obtain ⟨text, following, rfl, len, digits, -⟩ := exists_runLength Char.isDigit rest
    exact ⟨'.' :: text, following, rfl, by rw [len, List.length_cons, Nat.add_comm],
      .point digits⟩
  · exact ⟨[], cs, rfl, rfl, .none⟩

theorem exists_exponent (cs : List Char) :
    ∃ text following, cs = text ++ following ∧ exponentLength cs = text.length ∧ Exponent text := by
  cases cs with
  | nil => exact ⟨[], [], rfl, rfl, .none⟩
  | cons c rest =>
    rw [exponentLength]
    split
    · rename_i mark
      obtain ⟨sign, unsigned, rfl, lenSign, hsign⟩ := exists_sign rest
      rw [lenSign, List.drop_left]
      obtain ⟨text, following, rfl, len, digits, -⟩ := exists_runLength Char.isDigit unsigned
      refine ⟨c :: (sign ++ text), following, by simp, ?_, .mark (by simpa using mark) hsign digits⟩
      rw [len, List.length_cons, List.length_append]
      omega
    · exact ⟨[], c :: rest, rfl, rfl, .none⟩

/-- The digits at the front are a whole part, if a zero stands before no other digit. -/
theorem exists_whole {rest : List Char} (digit : c.isDigit = true)
    (alone : c = '0' → ∀ d ∈ rest.head?, d.isDigit = false) :
    ∃ text following, c :: rest = text ++ following ∧
      runLength Char.isDigit (c :: rest) = text.length ∧ Whole text := by
  have len := runLength_cons rest digit
  by_cases zero : c = '0'
  · subst zero
    exact ⟨['0'], rest, rfl, by rw [len, runLength_eq_zero (alone rfl)]; rfl, .zero⟩
  · obtain ⟨text, following, rfl, run, digits, -⟩ := exists_runLength Char.isDigit rest
    exact ⟨c :: text, following, rfl, by rw [len, run, List.length_cons, Nat.add_comm],
      .digits digit zero digits⟩

theorem exists_decimalNumber {rest : List Char} (digit : c.isDigit = true)
    (alone : c = '0' → ∀ d ∈ rest.head?, d.isDigit = false) :
    ∃ text following, c :: rest = text ++ following ∧
      (decimalNumber (c :: rest)).2 = text.length ∧
      Number (decimalNumber (c :: rest)).1 text := by
  obtain ⟨whole, afterWhole, e, lenWhole, hw⟩ := exists_whole digit alone
  obtain ⟨fraction, afterFraction, rfl, lenFraction, hf⟩ := exists_fraction afterWhole
  obtain ⟨exponent, following, rfl, lenExponent, he⟩ := exists_exponent afterFraction
  refine ⟨whole ++ (fraction ++ exponent), following, by simp [e], ?_⟩
  have number := Number.decimal hw hf he
  rw [e] at lenWhole ⊢
  have beyond : (whole ++ (fraction ++ (exponent ++ following))).drop
      (whole.length + fraction.length) = exponent ++ following := by
    rw [← List.append_assoc, ← List.length_append, List.drop_left]
  simp only [decimalNumber, lenWhole, List.drop_left, lenFraction, beyond, lenExponent,
    List.length_append, Nat.add_assoc, true_and]
  have plain : fraction.length + exponent.length = 0 ↔ fraction ++ exponent = [] := by
    rw [← List.length_append, List.length_eq_zero_iff]
  simpa only [plain] using number

theorem number_hexadecimal {m : Char} (rest : List Char) (h : m ∈ ['x', 'X']) :
    number ('0' :: m :: rest) = (.integer, 2 + runLength isHexDigit rest) := by
  have mark : (m == 'x' || m == 'X') = true := by simpa using h
  rw [number, if_pos mark]

theorem number_padded {d : Char} (rest : List Char) (h : d.isDigit = true) :
    number ('0' :: d :: rest) = (.integer, 1 + runLength Char.isDigit (d :: rest)) := by
  have mark : ¬ (d == 'x' || d == 'X') = true := by
    simp only [Bool.or_eq_true, beq_iff_eq]
    rintro (rfl | rfl) <;> cases h
  rw [number, if_neg mark, if_pos h]

theorem number_decimal {rest : List Char}
    (plain : c = '0' → ∀ d ∈ rest.head?, d ∉ ['x', 'X'] ∧ d.isDigit = false) :
    number (c :: rest) = decimalNumber (c :: rest) := by
  unfold number
  split
  · rename_i d rest e
    cases e
    obtain ⟨notX, notDigit⟩ := plain rfl d rfl
    simp only [List.mem_cons, List.not_mem_nil, or_false, not_or] at notX
    rw [if_neg (by simpa using notX), if_neg (by simp [notDigit])]
  · rfl

theorem exists_number (rest : List Char) (digit : c.isDigit = true) :
    ∃ text following, c :: rest = text ++ following ∧ (number (c :: rest)).2 = text.length ∧
      Number (number (c :: rest)).1 text := by
  by_cases zero : c = '0'
  · subst zero
    cases rest with
    | nil =>
      rw [number_decimal (by simp)]
      exact exists_decimalNumber digit (by simp)
    | cons d rest =>
      by_cases hex : d ∈ ['x', 'X']
      · obtain ⟨text, following, rfl, len, digits, -⟩ := exists_runLength isHexDigit rest
        rw [number_hexadecimal _ hex, len]
        exact ⟨'0' :: d :: text, following, rfl, Nat.add_comm 2 _, .hexadecimal hex digits⟩
      by_cases padded : d.isDigit = true
      · obtain ⟨text, following, rfl, len, digits, -⟩ := exists_runLength Char.isDigit rest
        rw [number_padded _ padded, runLength_cons _ padded, len]
        refine ⟨'0' :: d :: text, following, rfl, ?_, .padded (List.cons_ne_nil d text) ?_⟩
        · simp only [List.length_cons]
          omega
        · exact List.forall_mem_cons.mpr ⟨padded, digits⟩
      · have notDigit := Bool.eq_false_iff.mpr padded
        rw [number_decimal fun _ e he => by cases he; exact ⟨hex, notDigit⟩]
        exact exists_decimalNumber digit fun _ e he => by cases he; exact notDigit
  · rw [number_decimal fun same => absurd same zero]
    exact exists_decimalNumber digit fun same => absurd same zero

/-! ## No number reaches further -/

theorem length_le_runLength (following : List Char) (h : ∀ c ∈ text, p c = true) :
    text.length ≤ runLength p (text ++ following) := by
  rw [runLength_append following h]
  exact Nat.le_add_right _ _

theorem runLength_isDigit_of_mark {m : Char} (rest : List Char) (h : m ∈ ['.', 'e', 'E']) :
    runLength Char.isDigit (m :: rest) = 0 := by
  refine runLength_eq_zero fun c hc => ?_
  cases hc
  simp only [List.mem_cons, List.not_mem_nil, or_false] at h
  rcases h with rfl | rfl | rfl <;> rfl

theorem signLength_of_isDigit {d : Char} (rest : List Char) (h : d.isDigit = true) :
    signLength (d :: rest) = 0 := by
  unfold signLength
  split
  · rename_i e
    cases e
    exact absurd h (by decide)
  · rename_i e
    cases e
    exact absurd h (by decide)
  · rfl

theorem fractionLength_of_mark {m : Char} (rest : List Char) (h : m ∈ ['e', 'E']) :
    fractionLength (m :: rest) = 0 := by
  simp only [List.mem_cons, List.not_mem_nil, or_false] at h
  rcases h with rfl | rfl <;> rfl

theorem Exponent.length_le (h : Exponent text) (following : List Char) :
    text.length ≤ exponentLength (text ++ following) := by
  cases h with
  | none => exact Nat.zero_le _
  | @mark m sign digits hm hsign hd =>
    have mark : (m == 'e' || m == 'E') = true := by simpa using hm
    rw [List.cons_append, exponentLength, if_pos mark, List.append_assoc]
    have run := length_le_runLength following hd
    simp only [List.mem_cons, List.not_mem_nil, or_false] at hsign
    rcases hsign with rfl | rfl | rfl
    · cases digits with
      | nil =>
        simp only [List.append_nil, List.length_cons, List.length_nil]
        omega
      | cons d digits =>
        have unsigned := signLength_of_isDigit (digits ++ following) (hd d List.mem_cons_self)
        simp only [List.nil_append, List.cons_append, unsigned, List.drop_zero,
          List.length_cons] at run ⊢
        omega
    · simp only [List.cons_append, List.nil_append, signLength, List.drop_succ_cons,
        List.drop_zero, List.length_cons]
      omega
    · simp only [List.cons_append, List.nil_append, signLength, List.drop_succ_cons,
        List.drop_zero, List.length_cons]
      omega

/-- After the whole part, the fraction and the exponent are taken together. -/
theorem length_le_decimalTail {fraction exponent : List Char} (hf : Fraction fraction)
    (he : Exponent exponent) (following : List Char) :
    (fraction ++ exponent).length ≤
      fractionLength (fraction ++ (exponent ++ following)) +
        exponentLength ((fraction ++ (exponent ++ following)).drop
          (fractionLength (fraction ++ (exponent ++ following)))) := by
  have reach := he.length_le following
  cases hf with
  | none =>
    cases he with
    | none => exact Nat.zero_le _
    | mark hm =>
      rw [List.cons_append] at reach
      simp only [List.nil_append, List.cons_append, fractionLength_of_mark _ hm, List.drop_zero,
        Nat.zero_add]
      exact reach
  | @point digits hd =>
    rw [List.cons_append, List.cons_append, fractionLength, runLength_append _ hd]
    cases he with
    | none =>
      simp only [List.append_nil, List.length_cons]
      omega
    | mark hm =>
      rw [List.cons_append, runLength_isDigit_of_mark _ (List.mem_cons_of_mem _ hm), Nat.add_zero,
        Nat.add_comm 1, List.drop_succ_cons, List.drop_left, List.length_cons, List.length_append]
      rw [List.cons_append] at reach
      omega

theorem length_le_decimalNumber {whole fraction exponent : List Char} (hw : Digits whole)
    (hf : Fraction fraction) (he : Exponent exponent) (following : List Char) :
    (whole ++ (fraction ++ exponent)).length ≤
      (decimalNumber (whole ++ (fraction ++ (exponent ++ following)))).2 := by
  simp only [decimalNumber]
  rw [runLength_append _ hw, List.length_append]
  by_cases empty : fraction ++ exponent = []
  · rw [empty, List.length_nil]
    omega
  · obtain ⟨m, rest, e, hm⟩ := exists_mark_of_ne_nil hf he empty
    have stop : runLength Char.isDigit (fraction ++ (exponent ++ following)) = 0 := by
      rw [← List.append_assoc, e]
      exact runLength_isDigit_of_mark _ hm
    have tail := length_le_decimalTail hf he following
    rw [stop, Nat.add_zero, List.drop_left, ← List.drop_drop, List.drop_left]
    omega

theorem Number.length_le (h : Number l text) (following : List Char) :
    text.length ≤ (number (text ++ following)).2 := by
  cases h with
  | hexadecimal hm digits =>
    have run := length_le_runLength following digits
    rw [List.cons_append, List.cons_append, number_hexadecimal _ hm]
    simp only [List.length_cons]
    omega
  | @padded digits nonempty hd =>
    obtain ⟨d, digits, rfl⟩ := List.exists_cons_of_ne_nil nonempty
    have run := length_le_runLength following hd
    rw [List.cons_append] at run ⊢
    rw [List.cons_append, number_padded _ (hd d List.mem_cons_self)]
    simp only [List.length_cons] at run ⊢
    omega
  | @decimal whole fraction exponent hw hf he =>
    have reach := length_le_decimalNumber (digits_of_whole hw) hf he following
    rw [List.append_assoc, List.append_assoc]
    cases hw with
    | zero =>
      by_cases empty : fraction ++ exponent = []
      · rw [empty]
        exact number_pos _ rfl
      · obtain ⟨m, rest, e, hm⟩ := exists_mark_of_ne_nil hf he empty
        have plain : number ('0' :: (fraction ++ (exponent ++ following))) =
            decimalNumber ('0' :: (fraction ++ (exponent ++ following))) := by
          rw [← List.append_assoc, e]
          refine number_decimal fun _ d hd => ?_
          cases hd
          simp only [List.mem_cons, List.not_mem_nil, or_false] at hm
          rcases hm with rfl | rfl | rfl <;> exact ⟨by simp, rfl⟩
        rw [List.singleton_append, List.singleton_append, plain]
        exact reach
    | @digits d digits _ nonzero =>
      have plain : number (d :: (digits ++ (fraction ++ (exponent ++ following)))) =
          decimalNumber (d :: (digits ++ (fraction ++ (exponent ++ following)))) :=
        number_decimal fun zero => absurd zero nonzero
      rw [List.cons_append, List.cons_append, plain]
      exact reach

/-! ## Words -/

theorem word_eq (start : isWordStart c = true) (parts : ∀ d ∈ text, isWordPart d = true)
    (stop : ∀ d ∈ following.head?, isWordPart d = false) :
    word (c :: (text ++ following)) = (wordKind (c :: text), 1 + text.length) := by
  have reach : runLength isWordPart (c :: (text ++ following)) = 1 + text.length := by
    rw [runLength_cons _ (isWordPart_of_isWordStart start), runLength_append _ parts,
      runLength_eq_zero stop, Nat.add_zero]
  have taken : (c :: (text ++ following)).take (1 + text.length) = c :: text := by
    rw [Nat.add_comm, List.take_succ_cons, List.take_left]
  simp only [word, reach, taken]

/-! ## Symbols -/

namespace Symbol

theorem mem_longestFirst (m : Symbol) : m ∈ longestFirst := by
  unfold longestFirst
  rw [List.mem_append, List.mem_filter, List.mem_filter]
  exact m.length_spelling.imp (fun two => ⟨m.mem_all, by simp [two]⟩)
    fun one => ⟨m.mem_all, by simp [one]⟩

theorem pairwise_longestFirst :
    longestFirst.Pairwise fun m m' => m'.spelling.length ≤ m.spelling.length := by
  decide

theorem exists_of_ofStart? {m : Symbol} (h : ofStart? cs = some m) :
    ∃ following, cs = m.spelling ++ following := by
  unfold ofStart? at h
  have starts := List.find?_some h
  obtain ⟨following, e⟩ := List.isPrefixOf_iff_prefix.mp starts
  exact ⟨following, e.symm⟩

/-- Where a symbol stands at the front, one that is as long is found. -/
theorem exists_ofStart?_append (m : Symbol) (following : List Char) :
    ∃ m', ofStart? (m.spelling ++ following) = some m' ∧
      m.spelling.length ≤ m'.spelling.length := by
  have starts : m.spelling.isPrefixOf (m.spelling ++ following) = true :=
    List.isPrefixOf_iff_prefix.mpr (List.prefix_append _ _)
  obtain ⟨m', found⟩ : ∃ m', ofStart? (m.spelling ++ following) = some m' :=
    Option.isSome_iff_exists.mp (List.find?_isSome.mpr ⟨m, mem_longestFirst m, starts⟩)
  refine ⟨m', found, ?_⟩
  -- The symbols that were passed over do not stand there, and those left are no longer.
  obtain ⟨-, before, after, order, skipped⟩ := List.find?_eq_some_iff_append.mp found
  have here : m ∈ before ++ m' :: after := order ▸ mem_longestFirst m
  have notBefore : m ∉ before := fun h => by simpa [starts] using skipped m h
  rcases List.mem_cons.mp ((List.mem_append.mp here).resolve_left notBefore) with rfl | later
  · exact Nat.le_refl _
  · have sorted := pairwise_longestFirst
    rw [order, List.pairwise_append, List.pairwise_cons] at sorted
    exact sorted.2.1.1 m later

end Symbol

end AtomFrontEnd

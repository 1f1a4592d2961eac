import AtomFrontEnd.Text.Alphabetic
import AtomFrontEnd.Text.Numeric

/-!
The character classes of the lexical grammar.

Blanks, letters and the characters that may continue a word are taken from
Unicode tables; digits of number literals are the ASCII digits alone. A blank
never belongs to a word (`isWordPart_eq_false_of_isBlank`); a digit does, but never
begins one (`isWordStart_eq_false_of_isDigit`).
-/

namespace AtomFrontEnd.Text

/-- Ranges of the Unicode property White_Space, both ends included, in ascending order. -/
def blankRanges : List (Nat × Nat) :=
  [(0x9, 0xD), (0x20, 0x20), (0x85, 0x85), (0xA0, 0xA0), (0x1680, 0x1680), (0x2000, 0x200A),
    (0x2028, 0x2029), (0x202F, 0x202F), (0x205F, 0x205F), (0x3000, 0x3000)]

/-- Whether one of the ranges, which are in ascending order, holds `n`. -/
def covers : List (Nat × Nat) → Nat → Bool
  | [], _ => false
  | (first, last) :: rest, n => decide (first ≤ n) && (decide (n ≤ last) || covers rest n)

/-- White space. -/
def isBlank (c : Char) : Bool := covers blankRanges c.toNat

/-- Letters, and the marks and numbers that Unicode counts as alphabetic. -/
def isAlphabetic (c : Char) : Bool := covers alphabeticRanges c.toNat

/-- Decimal digits, letter-like numbers and other numbers. -/
def isNumeric (c : Char) : Bool := covers numericRanges c.toNat

def isWordStart (c : Char) : Bool := isAlphabetic c || c == '_'

def isWordPart (c : Char) : Bool := isAlphabetic c || isNumeric c || c == '_'

/-- The ASCII digits of base sixteen, in either case. -/
def isHexDigit (c : Char) : Bool :=
  c.isDigit || (decide ('a' ≤ c) && decide (c ≤ 'f')) || (decide ('A' ≤ c) && decide (c ≤ 'F'))

theorem isWordPart_of_isWordStart {c : Char} (h : isWordStart c = true) : isWordPart c = true := by
  unfold isWordStart at h
  unfold isWordPart
  simp only [Bool.or_eq_true] at h ⊢
  exact h.elim (fun h => .inl (.inl h)) .inr

/-! ## Blanks and words are apart -/

theorem toNat_mem_of_isBlank {c : Char} (h : isBlank c = true) :
    c.toNat ∈ [0x9, 0xA, 0xB, 0xC, 0xD, 0x20, 0x85, 0xA0, 0x1680, 0x2000, 0x2001, 0x2002,
      0x2003, 0x2004, 0x2005, 0x2006, 0x2007, 0x2008, 0x2009, 0x200A, 0x2028, 0x2029, 0x202F,
      0x205F, 0x3000] := by
  revert h
  unfold isBlank
  generalize c.toNat = n
  intro h
  simp only [covers, blankRanges, Bool.and_eq_true, Bool.or_eq_true, decide_eq_true_eq,
    Bool.false_eq_true, or_false] at h
  simp only [List.mem_cons, List.not_mem_nil, or_false]
  omega

theorem isBlank_eq_false_of_visible {c : Char} (low : 0x21 ≤ c.toNat) (high : c.toNat ≤ 0x7E) :
    isBlank c = false := by
  refine Bool.eq_false_iff.mpr fun blank => ?_
  have known := toNat_mem_of_isBlank blank
  simp only [List.mem_cons, List.not_mem_nil, or_false] at known
  omega

theorem isWordPart_eq_false_of_isBlank {c : Char} (h : isBlank c = true) :
    isWordPart c = false := by
  have apart : ∀ n ∈ [0x9, 0xA, 0xB, 0xC, 0xD, 0x20, 0x85, 0xA0, 0x1680, 0x2000, 0x2001, 0x2002,
      0x2003, 0x2004, 0x2005, 0x2006, 0x2007, 0x2008, 0x2009, 0x200A, 0x2028, 0x2029, 0x202F,
      0x205F, 0x3000], (covers alphabeticRanges n || covers numericRanges n) = false ∧ n ≠ 0x5F := by
    decide +kernel
  obtain ⟨outside, other⟩ := apart _ (toNat_mem_of_isBlank h)
  have line : (c == '_') = false := by
    refine beq_eq_false_iff_ne.mpr fun e => other ?_
    rw [e]
    rfl
  simp only [isWordPart, isAlphabetic, isNumeric, outside, line, Bool.or_self]

theorem not_isBlank_of_isWordPart {c : Char} (h : isWordPart c = true) : ¬ isBlank c = true :=
  fun blank => by simp [isWordPart_eq_false_of_isBlank blank] at h

/-! ## Digits and words -/

theorem covers_of_mem_head {first last n : Nat} (rest : List (Nat × Nat)) (low : first ≤ n)
    (high : n ≤ last) : covers ((first, last) :: rest) n = true := by
  simp [covers, low, high]

theorem covers_of_lt_head {first last n : Nat} (rest : List (Nat × Nat)) (low : n < first) :
    covers ((first, last) :: rest) n = false := by
  simp [covers, Nat.not_le.mpr low]

theorem toNat_of_isDigit {c : Char} (h : c.isDigit = true) : 0x30 ≤ c.toNat ∧ c.toNat ≤ 0x39 := by
  simp only [Char.isDigit, Bool.and_eq_true, decide_eq_true_eq, ge_iff_le,
    UInt32.le_iff_toNat_le] at h
  exact h

theorem isWordPart_of_isDigit {c : Char} (h : c.isDigit = true) : isWordPart c = true := by
  obtain ⟨low, high⟩ := toNat_of_isDigit h
  have numeric : isNumeric c = true := covers_of_mem_head _ low high
  simp only [isWordPart, numeric, Bool.or_true, Bool.true_or]

theorem isBlank_eq_false_of_isDigit {c : Char} (h : c.isDigit = true) : isBlank c = false :=
  Bool.eq_false_iff.mpr (not_isBlank_of_isWordPart (isWordPart_of_isDigit h))

theorem isBlank_eq_false_of_isHexDigit {c : Char} (h : isHexDigit c = true) :
    isBlank c = false := by
  simp only [isHexDigit, Bool.or_eq_true, Bool.and_eq_true, decide_eq_true_eq, Char.le_def,
    UInt32.le_iff_toNat_le] at h
  rcases h with (digit | ⟨low, high⟩) | ⟨low, high⟩
  · exact isBlank_eq_false_of_isDigit digit
  · exact isBlank_eq_false_of_visible (Nat.le_trans (by decide) low) (Nat.le_trans high (by decide))
  · exact isBlank_eq_false_of_visible (Nat.le_trans (by decide) low) (Nat.le_trans high (by decide))

theorem isWordStart_eq_false_of_isDigit {c : Char} (h : c.isDigit = true) :
    isWordStart c = false := by
  obtain ⟨low, high⟩ := toNat_of_isDigit h
  have alphabetic : isAlphabetic c = false := covers_of_lt_head _ (by omega)
  have line : (c == '_') = false := by
    refine beq_eq_false_iff_ne.mpr fun e => ?_
    subst e
    exact absurd high (by decide)
  simp only [isWordStart, alphabetic, line, Bool.or_self]

end AtomFrontEnd.Text

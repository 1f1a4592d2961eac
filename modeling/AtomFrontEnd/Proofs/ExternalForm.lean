import AtomFrontEnd.Verdict
import Std.Data.String.ToNat

/-!
The external form of a token can be read in one way only.

A token's text is not escaped, so it may hold quotes and commas and may look like the rest
of the form. What stands around it can still be told from it. No name of a kind has a comma,
so the first comma ends the name (`eq_of_cut_first`). After the text comes the line, which is
written in digits, so the last quote ends the text (`eq_of_cut_last`). Names of kinds and
decimal numbers are told apart, and so are the forms of tokens (`Token.eq_of_render`).
-/

namespace AtomFrontEnd

/-! ## The parts of the form -/

theorem TokenKind.name_injective {k k' : TokenKind} (h : k.name = k'.name) : k = k' := by
  have read := congrArg ofName? h
  rwa [ofName?_name, ofName?_name, Option.some.injEq] at read

theorem TokenKind.comma_not_mem_name (k : TokenKind) : ',' ∉ k.name.toList := by
  cases k with
  | identifier => decide
  | keyword w => cases w <;> decide
  | literal l => cases l <;> decide
  | symbol m => cases m <;> decide
  | endOfInput => decide

theorem quote_not_mem_repr (n : Nat) : '"' ∉ (Nat.repr n).toList := by
  rw [Nat.toList_repr]
  intro mem
  have digit := Nat.isDigit_of_mem_toDigits (by decide) (by decide) mem
  exact absurd digit (by decide)

/-- What follows the text in the external form. -/
def Token.lineMark (t : Token) : List Char := (", Line: " ++ Nat.repr t.line ++ ")").toList

theorem Token.quote_not_mem_lineMark (t : Token) : '"' ∉ t.lineMark := by
  have digits := quote_not_mem_repr t.line
  simpa [lineMark] using digits

/-- The form in parts: the first comma ends the name, the last quote ends the text. -/
theorem Token.toList_render (t : Token) :
    t.render.toList =
      "Token(".toList ++
        (t.kind.name.toList ++ ',' :: (" \"".toList ++ (t.text.toList ++ '"' :: t.lineMark))) := by
  rw [render, lineMark]
  simp

/-! ## Cutting -/

section

variable {α : Type} {c : α} {front front' back back' : List α}

/-- Lists that are cut where an element stands first have the same parts. -/
theorem eq_of_cut_first (absent : c ∉ front) (absent' : c ∉ front')
    (h : front ++ c :: back = front' ++ c :: back') : front = front' ∧ back = back' := by
  rcases List.append_eq_append_iff.mp h with ⟨more, rfl, e⟩ | ⟨more, rfl, e⟩
  · cases more with
    | nil => exact ⟨(List.append_nil front).symm, (List.cons.inj e).2⟩
    | cons d more =>
      obtain ⟨rfl, -⟩ := List.cons.inj e
      exact absurd (List.mem_append_right front List.mem_cons_self) absent'
  · cases more with
    | nil => exact ⟨List.append_nil front', (List.cons.inj e).2.symm⟩
    | cons d more =>
      obtain ⟨rfl, -⟩ := List.cons.inj e
      exact absurd (List.mem_append_right front' List.mem_cons_self) absent

theorem eq_of_cut_last (absent : c ∉ back) (absent' : c ∉ back')
    (h : front ++ c :: back = front' ++ c :: back') : front = front' ∧ back = back' := by
  have reversed : back.reverse ++ c :: front.reverse = back'.reverse ++ c :: front'.reverse := by
    simpa using congrArg List.reverse h
  obtain ⟨backs, fronts⟩ := eq_of_cut_first (by simpa using absent) (by simpa using absent') reversed
  exact ⟨List.reverse_inj.mp fronts, List.reverse_inj.mp backs⟩

end

/-! ## Reading the form -/

theorem Token.line_eq_of_lineMark {t t' : Token} (h : t.lineMark = t'.lineMark) :
    t.line = t'.line := by
  have digits := String.toList_inj.mp h
  rw [String.append_left_inj, String.append_right_inj] at digits
  exact Nat.repr_inj.mp digits

theorem Token.eq_of_render {t t' : Token} (h : t.render = t'.render) : t = t' := by
  have chars : t.render.toList = t'.render.toList := congrArg String.toList h
  rw [toList_render, toList_render, List.append_cancel_left_eq] at chars
  obtain ⟨names, chars⟩ :=
    eq_of_cut_first t.kind.comma_not_mem_name t'.kind.comma_not_mem_name chars
  rw [List.append_cancel_left_eq] at chars
  obtain ⟨texts, lines⟩ := eq_of_cut_last t.quote_not_mem_lineMark t'.quote_not_mem_lineMark chars
  have kind : t.kind = t'.kind := TokenKind.name_injective (String.toList_inj.mp names)
  have text : t.text = t'.text := String.toList_inj.mp texts
  have line : t.line = t'.line := line_eq_of_lineMark lines
  cases t
  cases t'
  subst kind text line
  rfl

/-- The wording of a stalled error is a fixed text before the token's external form. -/
theorem SyntaxError.render_eq_of_message {t t' : Token}
    (h : (stalled t).message = (stalled t').message) : t.render = t'.render :=
  (String.append_right_inj _).mp h

/-- Whatever their texts are, tokens have the same external form only if they are the same:
of one kind, with one text, on one line. So a stalled error's wording tells its token. -/
theorem render_unambiguous :
    (∀ t t' : Token, t.render = t'.render ↔ t = t') ∧
      ∀ t t' : Token,
        (SyntaxError.stalled t).message = (SyntaxError.stalled t').message ↔ t = t' := by
  refine ⟨fun t t' => ⟨Token.eq_of_render, ?_⟩, fun t t' => ⟨?_, ?_⟩⟩
  · rintro rfl
    rfl
  · intro h
    exact Token.eq_of_render (SyntaxError.render_eq_of_message h)
  · rintro rfl
    rfl

end AtomFrontEnd

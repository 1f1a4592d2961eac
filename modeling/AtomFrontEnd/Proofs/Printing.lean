import AtomFrontEnd.Proofs.Blanks

/-!
Printing and scanning.

A token is written as its text, in quotes if it is a quoted literal. Blanks keep the
written tokens apart: a token before a blank is the longest piece there, because no
token goes on over a blank but a literal in quotes, and that ends at its own quote
(`longestLexeme_enclose`). So what is printed with blanks between the tokens is scanned
to the same tokens (`Printed.scan`). And whatever is scanned can be printed: the scan of
any source gives only tokens with a text of their kind (`Munches.exists_body`).
-/

namespace AtomFrontEnd

open Text

/-! ## Printed tokens -/

/-- The kind and the text of a token. -/
def Token.content (t : Token) : TokenKind × String := (t.kind, t.text)

/-- The text is one of those that tokens of the kind have. -/
def WellFormed (content : TokenKind × String) : Prop := Spelled content.1 content.2.toList

/-- A token as it is written. -/
def written (content : TokenKind × String) : List Char := content.1.enclose content.2.toList

/-- The source is the tokens as they are written, with blanks between each and the next. -/
inductive Printed : List (TokenKind × String) → (source : List Char) → Prop where
  | nil : Printed [] []
  | last {content : TokenKind × String} : Printed [content] (written content)
  | cons {content next : TokenKind × String} {contents blanks source} :
    blanks ≠ [] → (∀ c ∈ blanks, isBlank c = true) → Printed (next :: contents) source →
    Printed (content :: next :: contents) (written content ++ (blanks ++ source))

/-- The tokens as they are written, the end token left out, with a space between each and
the next. -/
def spaced (tokens : List Token) : String :=
  String.ofList (List.intercalate [' ']
    ((tokens.filter (·.kind != .endOfInput)).map fun t => written t.content))

variable {kind : TokenKind} {value text following blanks source : List Char}
  {l : Literal} {m : Symbol} {c : Char} {content : TokenKind × String}
  {contents : List (TokenKind × String)}

/-! ## A token before a blank -/

/-- A token is the longest piece where only a blank or the end comes after it. -/
theorem longestLexeme_enclose (spelled : Spelled kind value)
    (stop : ∀ c ∈ following.head?, isBlank c = true) :
    LongestLexeme following (some (kind, value)) (kind.enclose value) := by
  have lexeme : Lexeme following _ _ := .token spelled
  refine ⟨lexeme, fun {following'} sense text' h' e => ?_⟩
  generalize kind.enclose value = text at lexeme e
  rcases List.append_eq_append_iff.mp e with ⟨_, rfl, -⟩ | ⟨more, rfl, rfl⟩
  · simp
  cases more with
  | nil => simp
  | cons d more =>
    -- A longer piece would go on over the blank, but what the token is written with is closed.
    rcases h'.blanks_or_goesOn lexeme.ne_nil (stop d rfl) with blank | goesOn
    · exact absurd blank lexeme.not_blanks
    · exact absurd goesOn (lexeme.not_goesOn (List.cons_ne_nil d _))

/-! ## Scanning what is printed -/

theorem Spelled.isBlank_head (h : Spelled kind value) :
    ∃ c text, kind.enclose value = c :: text ∧ isBlank c = false := by
  have lexeme : Lexeme [] _ _ := .token h
  obtain ⟨c, text, e⟩ := List.exists_cons_of_ne_nil lexeme.ne_nil
  refine ⟨c, text, e, Bool.eq_false_iff.mpr fun blank => ?_⟩
  rw [e, lexeme_cons_iff, front_of_isBlank blank] at lexeme
  cases lexeme.1

theorem Printed.isBlank_head (h : Printed (content :: contents) source) (wf : WellFormed content) :
    ∀ c ∈ source.head?, isBlank c = false := by
  obtain ⟨c, text, e, head⟩ := wf.isBlank_head
  cases h with
  | last => simpa [written, e] using head
  | cons => simpa [written, e] using head

theorem content_mk (content : TokenKind × String) (line : Nat) :
    Token.content ⟨content.1, String.ofList content.2.toList, line⟩ = content := by
  rw [String.ofList_toList]
  rfl

/-- Printed tokens are munched to the same tokens, from any line on. -/
theorem Printed.exists_munches (h : Printed contents source) (wf : ∀ t ∈ contents, WellFormed t)
    (line : Nat) :
    ∃ pieces tokens, Munches line source pieces tokens [] ∧
      tokens.map Token.content = contents ++ [(.endOfInput, "EOF")] := by
  induction h generalizing line with
  | nil => exact ⟨[], _, .done, rfl⟩
  | @last content =>
    have spelled := wf content List.mem_cons_self
    have longest : LongestLexeme [] _ _ := longestLexeme_enclose spelled (by simp)
    have munches : Munches line (written content ++ []) _ _ _ := .token longest .done
    rw [List.append_nil] at munches
    refine ⟨_, _, munches, ?_⟩
    rw [List.map_cons, content_mk]
    rfl
  | @cons content next contents blanks source nonempty blank rest ih =>
    have wfRest := fun t ht => wf t (List.mem_cons_of_mem content ht)
    have stop := rest.isBlank_head (wfRest next List.mem_cons_self)
    have first : ∀ c ∈ (blanks ++ source).head?, isBlank c = true := by
      obtain ⟨b, blanks, rfl⟩ := List.exists_cons_of_ne_nil nonempty
      simpa using blank b List.mem_cons_self
    have longest := longestLexeme_enclose (wf content List.mem_cons_self) first
    have apart := longestLexeme_blanks nonempty blank stop
    obtain ⟨pieces, tokens, munches, e⟩ := ih wfRest _
    refine ⟨_, _, .token longest (.skipped apart munches), ?_⟩
    rw [List.map_cons, content_mk, e]
    rfl

theorem Printed.scan {source : String} (h : Printed contents source.toList)
    (wf : ∀ t ∈ contents, WellFormed t) :
    (scanSource source).tokens.toList.map Token.content = contents ++ [(.endOfInput, "EOF")] ∧
      (scanSource source).warnings = #[] := by
  obtain ⟨pieces, tokens, munches, e⟩ := h.exists_munches wf 1
  obtain ⟨-, ht, hw⟩ := munches.unique (munches_scanSource source)
  rw [ht]
  exact ⟨e, Array.toList_eq_nil_iff.mp hw⟩

/-! ## Printing what is scanned -/

theorem Lexeme.spelled (h : Lexeme following (some (kind, value)) text) : Spelled kind value := by
  cases h with
  | token spelled => exact spelled
  | openLiteral quoted inside => exact .quoted quoted inside

theorem Munches.exists_body {line : Nat} {pieces : List (List Char)} {tokens : List Token}
    {warnings : List Warning} (h : Munches line source pieces tokens warnings) :
    ∃ body last, tokens = body ++ [.endAt last] ∧ ∀ t ∈ body, WellFormed t.content := by
  induction h with
  | @done line => exact ⟨[], line, rfl, by simp⟩
  | skipped _ _ ih => exact ih
  | token longest _ ih =>
    obtain ⟨body, last, rfl, wf⟩ := ih
    refine ⟨_ :: body, last, rfl, List.forall_mem_cons.mpr ⟨?_, wf⟩⟩
    rw [WellFormed, Token.content, String.toList_ofList]
    exact longest.lexeme.spelled
  | stray _ _ ih => exact ih

theorem WellFormed.ne_endOfInput (h : WellFormed content) : content.1 ≠ .endOfInput := by
  obtain ⟨kind, text⟩ := content
  rintro rfl
  cases h

theorem printed_intercalate (contents : List (TokenKind × String)) :
    Printed contents (List.intercalate [' '] (contents.map written)) := by
  induction contents with
  | nil => exact .nil
  | cons content contents ih =>
    cases contents with
    | nil =>
      rw [List.map_singleton, List.intercalate_singleton]
      exact .last
    | cons next contents =>
      rw [List.map_cons, List.map_cons, List.intercalate_cons_cons, ← List.map_cons,
        List.append_assoc]
      exact .cons (by simp) (List.all_eq_true.mp rfl) ih

theorem spaced_eq {body : List Token} (wf : ∀ t ∈ body, WellFormed t.content) (line : Nat) :
    spaced (body ++ [.endAt line]) =
      String.ofList (List.intercalate [' '] ((body.map Token.content).map written)) := by
  have kept : body.filter (·.kind != .endOfInput) = body :=
    List.filter_eq_self.mpr fun t ht => bne_iff_ne.mpr (wf t ht).ne_endOfInput
  rw [spaced, List.filter_append, kept, List.filter_cons_of_neg (by simp), List.filter_nil,
    List.append_nil, List.map_map]
  rfl

/-- Scanning undoes printing. Well-formed tokens that are printed with any blanks between
them are scanned to the same kinds and texts, and the end, with no warning. Every token
of every source but the end is well-formed, so that the tokens of any source, printed
with single spaces, are scanned again to the same kinds and texts. -/
theorem scanSource_undoes_printing :
    (∀ (contents : List (TokenKind × String)) (source : String),
      (∀ t ∈ contents, WellFormed t) → Printed contents source.toList →
      (scanSource source).tokens.toList.map Token.content = contents ++ [(.endOfInput, "EOF")] ∧
        (scanSource source).warnings = #[]) ∧
    ∀ source : String,
      (∀ t ∈ (scanSource source).tokens.toList, t.kind ≠ .endOfInput → WellFormed t.content) ∧
      (scanSource (spaced (scanSource source).tokens.toList)).tokens.toList.map Token.content =
        (scanSource source).tokens.toList.map Token.content ∧
      (scanSource (spaced (scanSource source).tokens.toList)).warnings = #[] := by
  refine ⟨fun contents source wf printed => printed.scan wf, fun source => ?_⟩
  obtain ⟨body, last, e, wf⟩ := (munches_scanSource source).exists_body
  have wfContents : ∀ t ∈ body.map Token.content, WellFormed t := List.forall_mem_map.mpr wf
  have printed := printed_intercalate (body.map Token.content)
  rw [e, spaced_eq wf]
  rw [← String.toList_ofList (l := List.intercalate _ _)] at printed
  obtain ⟨same, none⟩ := printed.scan wfContents
  refine ⟨fun t ht notEnd => ?_, ?_, none⟩
  · rcases List.mem_append.mp ht with here | atEnd
    · exact wf t here
    · exact absurd (by rw [List.mem_singleton.mp atEnd]; rfl) notEnd
  · rw [same, List.map_append]
    rfl

/-- Two slashes are no comment when a blank stands between them. -/
theorem scanSource_undoes_printing_slashes :
    (∀ t ∈ [(TokenKind.symbol .slash, "/"), (.symbol .slash, "/")], WellFormed t) ∧
      Printed [(.symbol .slash, "/"), (.symbol .slash, "/")] "/ /".toList ∧
      (scanSource "/ /").tokens.toList.map Token.content =
        [(.symbol .slash, "/"), (.symbol .slash, "/"), (.endOfInput, "EOF")] ∧
      ∃ t ∈ (scanSource "/ /").tokens.toList, t.kind ≠ .endOfInput ∧ WellFormed t.content := by
  have wf : ∀ t ∈ [(TokenKind.symbol .slash, "/"), (.symbol .slash, "/")], WellFormed t := by
    simp only [List.mem_cons, List.not_mem_nil, or_false, or_self, forall_eq]
    exact .symbol .slash
  have printed : Printed [(.symbol .slash, "/"), (.symbol .slash, "/")] "/ /".toList := by
    show Printed _ (written (.symbol .slash, "/") ++ ([' '] ++ written (.symbol .slash, "/")))
    exact .cons (by simp) (List.all_eq_true.mp rfl) .last
  have scanned := (scanSource_undoes_printing.1 _ _ wf printed).1
  obtain ⟨t, ht, e⟩ : ∃ t ∈ (scanSource "/ /").tokens.toList,
      t.content = (.symbol .slash, "/") := by
    refine List.mem_map.mp ?_
    rw [scanned]
    exact List.mem_cons_self
  have notEnd : t.kind ≠ .endOfInput := by
    rw [show t.kind = .symbol .slash from congrArg Prod.fst e]
    decide
  exact ⟨wf, printed, scanned, t, ht, notEnd, (scanSource_undoes_printing.2 "/ /").1 t ht notEnd⟩

end AtomFrontEnd

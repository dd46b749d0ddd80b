import Bindery.Proofs.Schema.Parsed
import Bindery.Proofs.Signature.Header
import Bindery.Proofs.Statement.Blanking
import Bindery.Proofs.Token.Kinds

namespace Bindery

namespace ReturnSpec

theorem mem_of_mem_splitSet {clause : List Token} {t : Token} (h : t ∈ (splitSet clause).2) :
    t ∈ clause := by
  unfold splitSet at h
  split at h
  · split at h
    · exact List.mem_cons_of_mem _ h
    · exact h
  · exact h

theorem parse_within {source : Text} {clause : List Token} (h : ∀ t ∈ clause, t.Within source)
    (more : Text) (params : List Parameter) (catalog : Catalog) {r : ReturnSpec} :
    parse (source ++ more) clause params catalog = .ok r ↔
      parse source clause params catalog = .ok r := by
  have hw : ∀ t ∈ (splitSet clause).2, t.Within source := fun t ht => h t (mem_of_mem_splitSet ht)
  unfold parse
  generalize splitSet clause = split at hw
  obtain ⟨isSet, rest⟩ := split
  have ht : Run.typeText (source ++ more) rest = Run.typeText source rest := by
    rw [Run.typeText, Run.typeText, Run.covered_inside fun t ht => (hw t ht).inside]
  simp only [ht]
  split
  · rename_i table opening inner
    split
    · have ho : opening.Within source := hw opening (by simp)
      have hi : ∀ t ∈ inner, t.Within source := fun t ht => hw t (by simp [ht])
      simp only [bind_eq_ok_iff, Run.parenthesized_within ho hi more]
    · rfl
  · rfl

end ReturnSpec

namespace Signature

/--
The front of a statement up to the first word that ends the return clause: a header, `RETURNS`, and
a clause in which such words stand only in parentheses or brackets. Parentheses and brackets each
match, however they are mixed.
-/
structure Heading (text : Text) (position : Position) extends Header where
  returns : Token
  clause : List Token
  ending : Token
  run : List Token
  tokens_text : tokenize text position = .ok (run ++ [ending])
  code_run : codeTokens run = toHeader.before (returns :: clause)
  isReturns : returns.isKeyword "RETURNS" = true
  clause_ne_nil : clause ≠ []
  isEnding : ending.isAnyKeyword clauseEnds = true
  parens : Balanced Token.isSymbol '(' ')' (toHeader.before (returns :: clause))
  brackets : Balanced Token.isSymbol '[' ']' (toHeader.before (returns :: clause))
  nested : ∀ n (h : n < clause.length), clause[n].isAnyKeyword clauseEnds = true →
    ¬ Run.Outside (toHeader.before (returns :: clause.take n))

namespace Heading

variable {text : Text} {position : Position} (h : Heading text position)

def read (doc : Option Text) (catalog : Catalog) : Except ParseError Signature := do
  let params ← h.params text
  let returns ← ReturnSpec.parse text h.clause params catalog
  return h.signature ⟨text, position, doc⟩ params returns

theorem ending_code : h.ending.isTrivia = false := by
  rw [Token.isTrivia, Token.kind_of_isAnyKeyword h.isEnding]
  rfl

theorem within : ∀ t ∈ h.before (h.returns :: h.clause), t.Within text := by
  intro t ht
  rw [← h.code_run] at ht
  have hm : t ∈ h.run ++ [h.ending] := List.mem_append_left _ (List.mem_of_mem_filter ht)
  exact (tokenize_eq_ok_iff.mp h.tokens_text).within (List.nil_append text).symm rfl t hm

theorem significantTokens_append {c : Char} (hc : Text.isBlank c = true) {more : Text}
    (hm : ∃ ts, tokenize (text ++ c :: more) position = .ok ts) :
    ∃ rest, significantTokens (text ++ c :: more) position =
      .ok (h.before (h.returns :: (h.clause ++ h.ending :: rest))) := by
  obtain ⟨ts, ht⟩ := hm
  have hl := (tokenize_eq_ok_iff.mp h.tokens_text).before_blank h.ending_code hc more
  have hs : tokenize (text ++ c :: more) position = _ := Cursor.tokens_lexes hl
  rw [hs] at ht
  obtain ⟨back, hb, -⟩ := bind_eq_ok_iff.mp ht
  refine ⟨codeTokens back, ?_⟩
  rw [significantTokens, hs, hb]
  change Except.ok (codeTokens (h.run ++ [h.ending] ++ back)) = _
  rw [codeTokens_append, codeTokens_append, h.code_run, codeTokens_cons_of_code h.ending_code,
    Header.before_eq, Header.before_eq]
  simp [codeTokens]

theorem depth_before (n : Nat) :
    Run.depth 0 (h.before (h.returns :: h.clause.take n)) = 0 ↔
      Run.Outside (h.before (h.returns :: h.clause.take n)) := by
  have hs : h.before (h.returns :: h.clause) =
      h.before (h.returns :: h.clause.take n) ++ h.clause.drop n := by
    rw [Header.before_eq, Header.before_eq, List.append_assoc, List.cons_append,
      List.take_append_drop]
  have hp := h.parens
  have hk := h.brackets
  rw [hs] at hp hk
  exact Run.depth_eq_zero_iff hp hk

theorem topIndex_clause (rest : List Token) :
    Run.topIndex (·.isAnyKeyword clauseEnds) (Run.depth 0 h.tokens) 0
      (h.clause ++ h.ending :: rest) = h.clause.length := by
  have hd (n : Nat) : Run.depth (Run.depth 0 h.tokens) (h.clause.take n) =
      Run.depth 0 (h.before (h.returns :: h.clause.take n)) := by
    rw [Header.before_eq, Run.depth_append, ← List.singleton_append, Run.depth_append,
      Run.depth_of_keyword h.isReturns]
  have hk : ∀ t : Token, t.isAnyKeyword clauseEnds = true → t.kind ≠ .symbol := by
    intro t ht
    rw [Token.kind_of_isAnyKeyword ht]
    decide
  apply Run.topIndex_eq hk _ _ h.isEnding
  · intro before t after hs ht hz
    have hn : before.length < h.clause.length := by
      rw [hs, List.length_append, List.length_cons]
      omega
    have ht' : h.clause[before.length] = t := by
      simp [hs]
    have htake : h.clause.take before.length = before := by
      rw [hs, List.take_left]
    apply h.nested before.length hn (by rwa [ht'])
    rwa [← depth_before, ← hd, htake]
  · have hz := (h.depth_before h.clause.length).mpr
    rw [← hd, List.take_length] at hz
    exact hz ⟨h.parens.whole, h.brackets.whole⟩

theorem params_append (more : Text) : h.params (text ++ more) = h.params text := by
  have ho : h.opening.Within text := h.within _ (by simp [Header.before])
  have hc : h.closing.Within text := h.within _ (by simp [Header.before])
  rw [Header.params, Header.params, Header.list, Header.list, ho.between_eq hc.offset_le]

theorem signature_append (more : Text) (doc : Option Text) (params : List Parameter)
    (returns : ReturnSpec) :
    h.signature ⟨text ++ more, position, doc⟩ params returns =
      h.signature ⟨text, position, doc⟩ params returns := by
  have hn : ∀ t ∈ h.name, t.Inside text := by
    intro t ht
    exact (h.within t (by simp [Header.before, ht])).inside
  rw [Header.signature, Header.signature, Run.covered_inside hn]

/-- A statement that begins with the front is read as the header and the clause are. -/
theorem parse_iff {c : Char} (hc : Text.isBlank c = true) {more : Text}
    (hm : ∃ ts, tokenize (text ++ c :: more) position = .ok ts) (doc : Option Text)
    (catalog : Catalog) (f : Signature) :
    parse ⟨text ++ c :: more, position, doc⟩ catalog = .ok f ↔ h.read doc catalog = .ok f := by
  obtain ⟨rest, ht⟩ := h.significantTokens_append hc hm
  have hs : significantTokens (Statement.mk (text ++ c :: more) position doc).text position = _ :=
    ht
  have hw : ∀ t ∈ h.clause, t.Within text := by
    intro t ht
    exact h.within t (by simp [Header.before, ht])
  rw [h.parse_eq hs, read]
  simp only [h.params_append, h.signature_append, bind_eq_ok_iff,
    returnSpec_eq _ _ _ _ h.isReturns h.clause_ne_nil (h.topIndex_clause rest),
    ReturnSpec.parse_within hw]

end Heading

/--
A signature depends only on the front of its statement up to the first word that ends the return
clause and a blank behind it. All statements that begin so and can be read into tokens are read
alike: as one signature, in which the clause goes up to that word, or not at all.
-/
theorem parse_eq_of_heading {text : Text} {position : Position} (h : Heading text position)
    {c : Char} (hc : Text.isBlank c = true) {x y : Text}
    (hx : ∃ ts, tokenize (text ++ c :: x) position = .ok ts)
    (hy : ∃ ts, tokenize (text ++ c :: y) position = .ok ts) (doc : Option Text)
    (catalog : Catalog) (f : Signature) :
    (parse ⟨text ++ c :: x, position, doc⟩ catalog = .ok f ↔
      parse ⟨text ++ c :: y, position, doc⟩ catalog = .ok f) ∧
    (parse ⟨text ++ c :: x, position, doc⟩ catalog = .ok f ↔ h.read doc catalog = .ok f) := by
  rw [h.parse_iff hc hx, h.parse_iff hc hy]
  exact ⟨Iff.rfl, Iff.rfl⟩

def rowsRun : List Token :=
  [⟨.word, "CREATE", 0, ⟨1, 1⟩⟩, ⟨.whitespace, " ", 6, ⟨1, 7⟩⟩, ⟨.word, "FUNCTION", 7, ⟨1, 8⟩⟩,
    ⟨.whitespace, " ", 15, ⟨1, 16⟩⟩, ⟨.word, "f", 16, ⟨1, 17⟩⟩, ⟨.symbol, "(", 17, ⟨1, 18⟩⟩,
    ⟨.word, "set", 18, ⟨1, 19⟩⟩, ⟨.whitespace, " ", 21, ⟨1, 22⟩⟩, ⟨.word, "text", 22, ⟨1, 23⟩⟩,
    ⟨.symbol, ")", 26, ⟨1, 27⟩⟩, ⟨.whitespace, " ", 27, ⟨1, 28⟩⟩, ⟨.word, "RETURNS", 28, ⟨1, 29⟩⟩,
    ⟨.whitespace, " ", 35, ⟨1, 36⟩⟩, ⟨.word, "TABLE", 36, ⟨1, 37⟩⟩, ⟨.symbol, "(", 41, ⟨1, 42⟩⟩,
    ⟨.word, "rows", 42, ⟨1, 43⟩⟩, ⟨.whitespace, " ", 46, ⟨1, 47⟩⟩, ⟨.word, "int", 47, ⟨1, 48⟩⟩,
    ⟨.symbol, ")", 50, ⟨1, 51⟩⟩, ⟨.whitespace, " ", 51, ⟨1, 52⟩⟩]

theorem tokenize_rows :
    tokenize "CREATE FUNCTION f(set text) RETURNS TABLE(rows int) LANGUAGE" .start =
      .ok (rowsRun ++ [⟨.word, "LANGUAGE", 52, ⟨1, 53⟩⟩]) := by
  decide +kernel

/-- Words that end a return clause name a parameter and a column. -/
def rowsHeading :
    Heading "CREATE FUNCTION f(set text) RETURNS TABLE(rows int) LANGUAGE" .start where
  front := [⟨.word, "CREATE", 0, ⟨1, 1⟩⟩]
  function := ⟨.word, "FUNCTION", 7, ⟨1, 8⟩⟩
  name := [⟨.word, "f", 16, ⟨1, 17⟩⟩]
  opening := ⟨.symbol, "(", 17, ⟨1, 18⟩⟩
  inner := [⟨.word, "set", 18, ⟨1, 19⟩⟩, ⟨.word, "text", 22, ⟨1, 23⟩⟩]
  closing := ⟨.symbol, ")", 26, ⟨1, 27⟩⟩
  front_other := by decide
  isFunction := rfl
  isName := .last rfl
  opens := rfl
  inner_balanced := (balanced_iff Token.isSymbol_unambiguous (by decide)).mpr (by decide)
  closes := rfl
  returns := ⟨.word, "RETURNS", 28, ⟨1, 29⟩⟩
  clause := [⟨.word, "TABLE", 36, ⟨1, 37⟩⟩, ⟨.symbol, "(", 41, ⟨1, 42⟩⟩,
    ⟨.word, "rows", 42, ⟨1, 43⟩⟩, ⟨.word, "int", 47, ⟨1, 48⟩⟩, ⟨.symbol, ")", 50, ⟨1, 51⟩⟩]
  ending := ⟨.word, "LANGUAGE", 52, ⟨1, 53⟩⟩
  run := rowsRun
  tokens_text := tokenize_rows
  code_run := rfl
  isReturns := rfl
  clause_ne_nil := List.cons_ne_nil _ _
  isEnding := by decide
  parens := (balanced_iff Token.isSymbol_unambiguous (by decide)).mpr (by decide)
  brackets := (balanced_iff Token.isSymbol_unambiguous (by decide)).mpr (by decide)
  nested := by decide

theorem parse_eq_of_heading_of_rows :
    parse ⟨"CREATE FUNCTION f(set text) RETURNS TABLE(rows int) LANGUAGE" ++ " sql AS $$)$$",
        .start, none⟩ {} =
      .ok ⟨"f", "f", none, [⟨some "set", .input, "text", none⟩],
        ⟨.explicit [⟨"rows", "int", true, none⟩], true⟩, .start⟩ ∧
    parse ⟨"CREATE FUNCTION f(set text) RETURNS TABLE(rows int) LANGUAGE" ++ " c ROWS (1",
        .start, none⟩ {} =
      .ok ⟨"f", "f", none, [⟨some "set", .input, "text", none⟩],
        ⟨.explicit [⟨"rows", "int", true, none⟩], true⟩, .start⟩ := by
  have hr : (rowsHeading.read none {}).toOption =
      some ⟨"f", "f", none, [⟨some "set", .input, "text", none⟩],
        ⟨.explicit [⟨"rows", "int", true, none⟩], true⟩, .start⟩ := by
    decide +kernel
  have hread {t : Text} (h : (tokenize t .start).toOption.isSome = true) :
      ∃ ts, tokenize t .start = .ok ts := by
    obtain ⟨ts, ht⟩ := Option.isSome_iff_exists.mp h
    exact ⟨ts, eq_ok_of_toOption ht⟩
  have hx : ∃ ts, tokenize ("CREATE FUNCTION f(set text) RETURNS TABLE(rows int) LANGUAGE" ++
      ' ' :: "sql AS $$)$$") .start = .ok ts := hread (by decide +kernel)
  have hy : ∃ ts, tokenize ("CREATE FUNCTION f(set text) RETURNS TABLE(rows int) LANGUAGE" ++
      ' ' :: "c ROWS (1") .start = .ok ts := hread (by decide +kernel)
  obtain ⟨hs, hp⟩ := parse_eq_of_heading rowsHeading rfl hx hy none {} _
  have hp := hp.mpr (eq_ok_of_toOption hr)
  exact ⟨hp, hs.mp hp⟩

end Signature

end Bindery

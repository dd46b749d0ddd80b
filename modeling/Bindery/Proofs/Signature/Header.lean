import Bindery.Proofs.Token.Runs
import Bindery.Signature

namespace Bindery

namespace Signature

theorem returnSpec_eq (s : Statement) (name : Text) (params : List Parameter) (catalog : Catalog)
    {depth : Nat} {returns : Token} {clause more : List Token}
    (hr : returns.isKeyword "RETURNS" = true) (hn : clause ≠ [])
    (hk : Run.topIndex (·.isAnyKeyword clauseEnds) depth 0 (clause ++ more) = clause.length) :
    returnSpec s name params catalog depth (returns :: (clause ++ more)) =
      ReturnSpec.parse s.text clause params catalog := by
  have he : ¬ clause.isEmpty = true := by
    rwa [List.isEmpty_iff]
  simp only [returnSpec]
  rw [if_pos hr, hk, List.take_left, if_neg he]

/-- A header: the first word `FUNCTION`, a name and a list in parentheses. -/
structure Header where
  front : List Token
  function : Token
  name : List Token
  opening : Token
  inner : List Token
  closing : Token
  front_other : ∀ t ∈ front, t.isKeyword "FUNCTION" = false
  isFunction : function.isKeyword "FUNCTION" = true
  isName : Run.IsName name
  opens : opening.isSymbol '(' = true
  inner_balanced : Balanced Token.isSymbol '(' ')' inner
  closes : closing.isSymbol ')' = true

namespace Header

variable (h : Header)

def before (after : List Token) : List Token :=
  h.front ++ h.function :: (h.name ++ h.opening :: (h.inner ++ h.closing :: after))

def tokens : List Token :=
  h.before []

theorem before_eq (after : List Token) : h.before after = h.tokens ++ after := by
  simp [before, tokens]

def list (source : Text) : Text :=
  Text.between source h.opening.stop h.closing.offset

def params (source : Text) : Except ParseError (List Parameter) := do
  let fragments ← splitTopLevel (h.list source) (h.opening.position.next '(')
  fragments.mapM Parameter.parse

def signature (s : Statement) (params : List Parameter) (returns : ReturnSpec) : Signature :=
  ⟨Run.covered s.text h.name, Run.spelledName h.name, s.doc, params, returns, s.position⟩

theorem dropWhile_before (after : List Token) :
    (h.before after).dropWhile (fun t => !t.isKeyword "FUNCTION") =
      h.function :: (h.name ++ h.opening :: (h.inner ++ h.closing :: after)) := by
  rw [before, List.dropWhile_append_of_pos]
  · rw [List.dropWhile_cons_of_neg]
    rw [h.isFunction]
    decide
  · intro t ht
    rw [h.front_other t ht]
    rfl

theorem opening_not_point : h.opening.isSymbol '.' = false := by
  rw [Bool.eq_false_iff]
  intro hp
  exact absurd (Token.isSymbol_unambiguous _ _ _ hp h.opens) (by decide)

theorem parse_eq {s : Statement} {after : List Token}
    (ht : significantTokens s.text s.position = .ok (h.before after)) (catalog : Catalog) :
    parse s catalog = (do
      let params ← h.params s.text
      let returns ←
        returnSpec s (Run.spelledName h.name) params catalog (Run.depth 0 h.tokens) after
      return h.signature s params returns) := by
  have hb := (balanced_iff Token.isSymbol_unambiguous (by decide)).mp h.inner_balanced
  have hdepth : (h.before after).take ((h.before after).length - after.length) = h.tokens := by
    rw [before_eq, List.length_append, Nat.add_sub_cancel, List.take_left]
  rw [parse, ht]
  simp only [bind, Except.bind]
  rw [dropWhile_before]
  simp only [Run.qualifiedName?_eq h.isName h.opening_not_point]
  rw [h.opens, Run.parenthesized_eq s.text h.opening hb h.closes]
  simp only [hdepth]
  rw [params, list]
  cases splitTopLevel (Text.between s.text h.opening.stop h.closing.offset)
    (h.opening.position.next '(') with
  | error e => rfl
  | ok fragments => rfl

end Header

end Signature

end Bindery

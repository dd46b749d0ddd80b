import Bindery.Proofs.Schema.Parsed
import Bindery.Proofs.Statement.Matching
import Bindery.Proofs.Token.Kinds

namespace Bindery

/-- What a list in parentheses describes. -/
inductive ListOwner where
  | table (name : Text)
  | enum (name : Text)
  | composite (name : Text)

def ListOwner.declaration : ListOwner → Run.Parenthesized → Except ParseError Declaration
  | table name, list => do
    let columns ← ColumnList.parse list.text list.origin
    return .table ⟨name, columns.columns⟩ columns.skipped
  | enum name, list => .ok (.enum ⟨name, list.inner.filterMap Token.stringValue?⟩)
  | composite name, list => do
    let columns ← ColumnList.parse list.text list.origin
    let fields := columns.columns.map fun c => { c with nullable := true }
    return .composite ⟨name, fields⟩ columns.skipped

/-- The tokens of a statement come to the parenthesis that opens the list of what it declares. -/
inductive Statement.OpensList (s : Statement) (tokens : List Token) :
    ListOwner → Token → List Token → Prop
  | table {after rest : List Token} {name : Text} {opening : Token} :
      StatementKind.split tokens = (.table, after) →
      Declaration.objectName s (Declaration.dropIfNotExists after) = .ok (name, opening :: rest) →
      opening.isSymbol '(' = true → OpensList s tokens (.table name) opening rest
  | enum {after rest : List Token} {name : Text} {as enum opening : Token} :
      StatementKind.split tokens = (.type, after) →
      Declaration.objectName s after = .ok (name, as :: enum :: opening :: rest) →
      as.isKeyword "AS" = true → enum.isKeyword "ENUM" = true → opening.isSymbol '(' = true →
      OpensList s tokens (.enum name) opening rest
  | composite {after rest : List Token} {name : Text} {as opening : Token} :
      StatementKind.split tokens = (.type, after) →
      Declaration.objectName s after = .ok (name, as :: opening :: rest) →
      as.isKeyword "AS" = true → opening.isSymbol '(' = true →
      OpensList s tokens (.composite name) opening rest

namespace StatementKind

theorem dropOrReplace_suffix (tokens : List Token) : dropOrReplace tokens <:+ tokens := by
  fun_cases dropOrReplace tokens with
  | case1 a b rest _ => exact ⟨[a, b], rfl⟩
  | case2 a b rest _ => exact List.suffix_refl _
  | case3 => exact List.suffix_refl _

theorem split_suffix (tokens : List Token) : (split tokens).2 <:+ tokens := by
  fun_cases split tokens with
  | case1 => exact List.suffix_refl _
  | case2 => exact List.nil_suffix
  | case3 => exact List.nil_suffix
  | case4 create rest _ t after ht =>
    have hd : t :: after <:+ rest :=
      ht ▸ (List.dropWhile_suffix _).trans (dropOrReplace_suffix rest)
    exact ((List.suffix_cons t after).trans hd).trans (List.suffix_cons create rest)

end StatementKind

namespace Declaration

theorem objectName_suffix {s : Statement} {tokens rest : List Token} {name : Text}
    (h : objectName s tokens = .ok (name, rest)) : rest <:+ tokens := by
  unfold objectName at h
  split at h
  · rename_i spelled after hq
    cases h
    exact ⟨spelled, (Run.qualifiedName?_sound hq).1.symm⟩
  · cases h

theorem dropIfNotExists_suffix (tokens : List Token) : dropIfNotExists tokens <:+ tokens := by
  fun_cases dropIfNotExists tokens with
  | case1 a b c rest _ => exact ⟨[a, b, c], rfl⟩
  | case2 a b c rest _ => exact List.suffix_refl _
  | case3 => exact List.suffix_refl _

end Declaration

namespace Statement.OpensList

variable {s : Statement} {tokens rest : List Token} {owner : ListOwner} {opening : Token}

theorem suffix (h : s.OpensList tokens owner opening rest) : opening :: rest <:+ tokens := by
  cases h with
  | table hs hn _ =>
    have ht := StatementKind.split_suffix tokens
    rw [hs] at ht
    exact (Declaration.objectName_suffix hn).trans
      ((Declaration.dropIfNotExists_suffix _).trans ht)
  | enum hs hn _ _ _ =>
    have ht := StatementKind.split_suffix tokens
    rw [hs] at ht
    exact ((List.suffix_cons _ _).trans (List.suffix_cons _ _)).trans
      ((Declaration.objectName_suffix hn).trans ht)
  | composite hs hn _ _ =>
    have ht := StatementKind.split_suffix tokens
    rw [hs] at ht
    exact (List.suffix_cons _ _).trans ((Declaration.objectName_suffix hn).trans ht)

theorem opens (h : s.OpensList tokens owner opening rest) : opening.isSymbol '(' = true := by
  cases h with
  | table _ _ ho => exact ho
  | enum _ _ _ _ ho => exact ho
  | composite _ _ _ ho => exact ho

theorem ofStatement_eq (h : s.OpensList tokens owner opening rest)
    (ht : significantTokens s.text s.position = .ok tokens) :
    Declaration.ofStatement s = Run.parenthesized s.text opening rest >>= owner.declaration := by
  rw [Declaration.ofStatement, ht]
  dsimp only [bind, Except.bind]
  cases h with
  | table hs hn ho =>
    rw [hs]
    dsimp only
    rw [Declaration.ofTable, hn]
    dsimp only [bind, Except.bind]
    rw [ho]
    rfl
  | enum hs hn ha he ho =>
    rw [hs]
    dsimp only
    rw [Declaration.ofType, hn]
    dsimp only [bind, Except.bind]
    rw [ha, he]
    dsimp only [Declaration.ofEnum]
    rw [ho]
    rfl
  | composite hs hn ha ho =>
    rw [hs]
    dsimp only
    rw [Declaration.ofType, hn]
    dsimp only [bind, Except.bind]
    rw [ha, Token.isKeyword_of_isSymbol ho]
    dsimp only [Declaration.ofComposite]
    rw [ho]
    rfl

end Statement.OpensList

namespace Declaration

/-- An outcome to which no list belongs: nothing with parts is declared, and what fails is not the
nesting. -/
inductive Listless : Except ParseError Declaration → Prop
  | domain {domain : Domain} : Listless (.ok (.domain domain))
  | function {s : Statement} : Listless (.ok (.function s))
  | other : Listless (.ok .other)
  | malformed {cause : Malformation} {place : Position} {quoted : Text} :
      Listless (.error (.malformed cause place quoted))

theorem objectName_cases (s : Statement) (tokens : List Token) :
    (∃ name rest, objectName s tokens = .ok (name, rest)) ∨
      objectName s tokens = .error (.malformed .noObjectName s.position (snippet s.text)) := by
  unfold objectName
  split
  · exact .inl ⟨_, _, rfl⟩
  · exact .inr rfl

theorem listless_ofDomain (s : Statement) (tokens : List Token) : Listless (ofDomain s tokens) := by
  rw [ofDomain]
  rcases objectName_cases s tokens with ⟨name, rest, hn⟩ | hn
  · rw [hn]
    dsimp only [bind, Except.bind]
    generalize (if (rest.head?.any fun t => t.isKeyword "AS".toList) then rest.drop 1
      else rest) = base
    split
    · exact .malformed
    · exact .domain
  · rw [hn]
    exact .malformed

theorem ofTable_cases {s : Statement} {tokens after : List Token}
    (h : StatementKind.split tokens = (.table, after)) :
    (∃ owner opening rest, s.OpensList tokens owner opening rest) ∨ Listless (ofTable s after) := by
  rw [ofTable]
  rcases objectName_cases s (dropIfNotExists after) with ⟨name, rest, hn⟩ | hn
  · rw [hn]
    dsimp only [bind, Except.bind]
    cases rest with
    | nil => exact .inr .other
    | cons opening rest =>
      dsimp only
      split
      · exact .inr .other
      · rename_i ho
        exact .inl ⟨_, _, _, .table h hn (by simpa using ho)⟩
  · rw [hn]
    exact .inr .malformed

theorem opens_or_other {f : List Token → Except ParseError Declaration} (hn : f [] = .ok .other)
    (hf : ∀ opening rest, opening.isSymbol '(' = false → f (opening :: rest) = .ok .other)
    (tokens : List Token) :
    (∃ opening rest, tokens = opening :: rest ∧ opening.isSymbol '(' = true) ∨
      f tokens = .ok .other := by
  cases tokens with
  | nil => exact .inr hn
  | cons opening rest =>
    cases ho : opening.isSymbol '(' with
    | true => exact .inl ⟨opening, rest, rfl, ho⟩
    | false => exact .inr (hf opening rest ho)

theorem ofType_cases {s : Statement} {tokens after : List Token}
    (h : StatementKind.split tokens = (.type, after)) :
    (∃ owner opening rest, s.OpensList tokens owner opening rest) ∨ Listless (ofType s after) := by
  have henum (name : Text) (opening : Token) (rest : List Token)
      (ho : opening.isSymbol '(' = false) : ofEnum s name (opening :: rest) = .ok .other := by
    rw [ofEnum, ho]
    rfl
  have hcomposite (name : Text) (opening : Token) (rest : List Token)
      (ho : opening.isSymbol '(' = false) : ofComposite s name (opening :: rest) = .ok .other := by
    rw [ofComposite, ho]
    rfl
  rw [ofType]
  rcases objectName_cases s after with ⟨name, rest, hn⟩ | hn
  · rw [hn]
    dsimp only [bind, Except.bind]
    cases rest with
    | nil => exact .inr .other
    | cons as rest =>
      dsimp only
      cases ha : as.isKeyword "AS" with
      | false => exact .inr .other
      | true =>
        cases rest with
        | nil => exact .inr .other
        | cons t more =>
          dsimp only
          cases he : t.isKeyword "ENUM" with
          | true =>
            rcases opens_or_other rfl (henum name) more with ⟨opening, rest, rfl, ho⟩ | hother
            · exact .inl ⟨_, _, _, .enum h hn ha he ho⟩
            · exact .inr (hother ▸ .other)
          | false =>
            rcases opens_or_other rfl (hcomposite name) (t :: more) with
              ⟨opening, rest, hr, ho⟩ | hother
            · cases hr
              exact .inl ⟨_, _, _, .composite h hn ha ho⟩
            · exact .inr (hother ▸ .other)
  · rw [hn]
    exact .inr .malformed

theorem ofStatement_cases {s : Statement} {tokens : List Token}
    (h : significantTokens s.text s.position = .ok tokens) :
    (∃ owner opening rest, s.OpensList tokens owner opening rest) ∨ Listless (ofStatement s) := by
  rw [ofStatement, h]
  dsimp only [bind, Except.bind]
  rcases hs : StatementKind.split tokens with ⟨kind, after⟩
  cases kind with
  | table => exact ofTable_cases hs
  | type => exact ofType_cases hs
  | domain => exact .inr (listless_ofDomain s after)
  | function => exact .inr .function
  | other => exact .inr .other

end Declaration

namespace Signature

/-- The tokens of a statement come to the parenthesis that opens the list of the parameters. -/
inductive OpensParams (tokens : List Token) : List Token → Token → List Token → Prop
  | intro {function opening : Token} {header name rest : List Token} :
      (tokens.dropWhile fun t => !t.isKeyword "FUNCTION") = function :: header →
      Run.qualifiedName? header = some (name, opening :: rest) → opening.isSymbol '(' = true →
      OpensParams tokens name opening rest

/-- The signature that is read from the list of the parameters and from what follows it. -/
def ofParams (s : Statement) (catalog : Catalog) (tokens name : List Token)
    (list : Run.Parenthesized) : Except ParseError Signature := do
  let fragments ← splitTopLevel list.text list.origin
  let params ← fragments.mapM Parameter.parse
  let depth := Run.depth 0 (tokens.take (tokens.length - list.after.length))
  let returns ← returnSpec s (Run.spelledName name) params catalog depth list.after
  return ⟨Run.covered s.text name, Run.spelledName name, s.doc, params, returns, s.position⟩

namespace OpensParams

variable {s : Statement} {tokens name rest : List Token} {opening : Token}

theorem suffix (h : OpensParams tokens name opening rest) : opening :: rest <:+ tokens := by
  cases h with
  | @intro function _ header _ _ hd hq _ =>
    have hh : opening :: rest <:+ header := ⟨name, (Run.qualifiedName?_sound hq).1.symm⟩
    exact (hh.trans (List.suffix_cons function header)).trans (hd ▸ List.dropWhile_suffix _)

theorem opens (h : OpensParams tokens name opening rest) : opening.isSymbol '(' = true := by
  cases h with
  | intro _ _ ho => exact ho

theorem parse_eq (h : OpensParams tokens name opening rest)
    (ht : significantTokens s.text s.position = .ok tokens) (catalog : Catalog) :
    parse s catalog =
      Run.parenthesized s.text opening rest >>= ofParams s catalog tokens name := by
  cases h with
  | intro hd hq ho =>
    rw [parse, ht]
    dsimp only [bind, Except.bind]
    rw [hd]
    dsimp only
    rw [hq]
    dsimp only
    rw [ho]
    rfl

end OpensParams

/-- A statement comes to a list of parameters, or its signature is malformed. -/
theorem parse_cases {s : Statement} {tokens : List Token}
    (h : significantTokens s.text s.position = .ok tokens) :
    (∃ name opening rest, OpensParams tokens name opening rest) ∨
      ∃ cause, ∀ catalog,
        parse s catalog = .error (.malformed cause s.position (snippet s.text)) := by
  simp only [parse, h, bind, Except.bind]
  cases hd : tokens.dropWhile fun t => !t.isKeyword "FUNCTION" with
  | nil => exact .inr ⟨_, fun _ => rfl⟩
  | cons function header =>
    dsimp only
    cases hq : Run.qualifiedName? header with
    | none => exact .inr ⟨_, fun _ => rfl⟩
    | some parts =>
      obtain ⟨name, after⟩ := parts
      cases after with
      | nil => exact .inr ⟨_, fun _ => rfl⟩
      | cons opening rest =>
        cases ho : opening.isSymbol '(' with
        | true => exact .inl ⟨_, _, _, .intro hd hq ho⟩
        | false =>
          refine .inr ⟨.noParameterList, fun _ => ?_⟩
          simp only [ho, Bool.not_false, if_true]

end Signature

/--
In every statement of a source that could be cut into statements, each opening parenthesis finds the
one that closes it, at the first place where as many are closed as are opened, and the text between
the two is cut out at whole characters. So a declaration and a signature are read from their list
wherever one opens, and where none opens they fail, if they do, for another reason than the nesting.
-/
theorem segment_parens_match {source : Text} {statements : List Statement}
    (h : segment source = .ok statements) {s : Statement} (hs : s ∈ statements) :
    ∃ tokens, significantTokens s.text s.position = .ok tokens ∧
      (∀ i opening, tokens[i]? = some opening → opening.isSymbol '(' = true →
        ∃ j closing, Run.ClosedBy s.text tokens i opening j closing) ∧
      (∀ owner opening rest, s.OpensList tokens owner opening rest →
        ∃ list, Run.parenthesized s.text opening rest = .ok list ∧
          Declaration.ofStatement s = owner.declaration list) ∧
      ((∃ owner opening rest, s.OpensList tokens owner opening rest) ∨
        Declaration.Listless (Declaration.ofStatement s)) ∧
      (∀ name opening rest, Signature.OpensParams tokens name opening rest →
        ∃ list, Run.parenthesized s.text opening rest = .ok list ∧
          ∀ catalog, Signature.parse s catalog = Signature.ofParams s catalog tokens name list) ∧
      ((∃ name opening rest, Signature.OpensParams tokens name opening rest) ∨
        ∃ cause, ∀ catalog, Signature.parse s catalog =
          .error (.malformed cause s.position (snippet s.text))) := by
  obtain ⟨tokens, ht, hb⟩ := exists_balanced_tokens h hs
  obtain ⟨hw, hp⟩ := significantTokens_within ht
  refine ⟨tokens, ht, fun i opening hi ho => Run.exists_closedBy hw hp hb hi ho, ?_,
    Declaration.ofStatement_cases ht, ?_, Signature.parse_cases ht⟩
  · intro owner opening rest ho
    obtain ⟨list, hl⟩ := Run.exists_parenthesized hb ho.suffix ho.opens s.text
    refine ⟨list, hl, ?_⟩
    rw [ho.ofStatement_eq ht, hl]
    rfl
  · intro name opening rest ho
    obtain ⟨list, hl⟩ := Run.exists_parenthesized hb ho.suffix ho.opens s.text
    refine ⟨list, hl, ?_⟩
    intro catalog
    rw [ho.parse_eq ht, hl]
    rfl

/-- A table whose type has a list inside its own, with a parenthesis in a comment and in a label. -/
theorem segment_parens_match_nested :
    segment "create table é (a numeric(3) default ')' /* ( */)".toList = .ok
      [⟨"create table é (a numeric(3) default ')'  )".toList, ⟨1, 1⟩, none⟩] ∧
    ∃ tokens j closing,
      significantTokens "create table é (a numeric(3) default ')'  )".toList ⟨1, 1⟩ = .ok tokens ∧
        Run.ClosedBy "create table é (a numeric(3) default ')'  )".toList tokens 3
          ⟨.symbol, "(".toList, 16, ⟨1, 16⟩⟩ j closing := by
  have h : segment "create table é (a numeric(3) default ')' /* ( */)".toList = .ok
      [⟨"create table é (a numeric(3) default ')'  )".toList, ⟨1, 1⟩, none⟩] := by
    decide +kernel
  obtain ⟨tokens, ht, hc, -⟩ := segment_parens_match h List.mem_cons_self
  have hi : (significantTokens "create table é (a numeric(3) default ')'  )".toList
      ⟨1, 1⟩).toOption.bind (·[3]?) = some ⟨.symbol, "(".toList, 16, ⟨1, 16⟩⟩ := by
    decide +kernel
  rw [ht] at hi
  obtain ⟨j, closing, hj⟩ := hc 3 _ hi (by decide)
  exact ⟨h, tokens, j, closing, ht, hj⟩

end Bindery

import Bindery.Proofs.Basic.Except
import Bindery.Proofs.Column.Clauses
import Bindery.Proofs.Place.Run
import Bindery.Proofs.Schema.Parsed

namespace Bindery

namespace Item

/-- How many tokens behind the name belong to the type. -/
def typeLength (tokens : List Token) : Nat :=
  Run.topIndex (·.isAnyKeyword typeEnds) 0 0 tokens.tail

def clauseTokens (tokens : List Token) : List Token :=
  tokens.tail.drop (typeLength tokens)

def clauseSites (opens : Nat → Bool) (tokens : List Token) : List Site :=
  Standing.sites opens {} (clauseTokens tokens)

/-- The column of a definition without what its clauses say. -/
def bare (source : Text) (tokens : List Token) : Column :=
  ⟨(tokens.head?.map Token.name).getD [],
    Run.typeText source (tokens.tail.take (typeLength tokens)), true, none⟩

def isNamed (tokens : List Token) : Bool :=
  tokens.head?.any (·.isKeyword "CONSTRAINT")

def constraintTokens (tokens : List Token) : List Token :=
  if isNamed tokens then tokens.drop 2 else tokens

def isKey (tokens : List Token) : Bool :=
  (constraintTokens tokens).head?.any (·.isKeyword "PRIMARY")

def isColumn (tokens : List Token) : Bool :=
  !isKey tokens && !isNamed tokens && !isTableConstraint tokens &&
    (tokens.head?.any Token.isIdentifier && typeLength tokens != 0)

/-- The tokens behind the first parenthesis of a constraint. -/
def keyTail (tokens : List Token) : List Token :=
  ((constraintTokens tokens).dropWhile fun t => !t.isSymbol '(').tail

theorem readClauses_sites (source : Text) (tokens : List Token) (c : Column) :
    readClauses source 0 tokens c = c.reading source (Standing.sites everywhere {} tokens) :=
  readClauses_eq source 0 tokens c fun _ _ _ => rfl

theorem column?_eq_some_iff {source : Text} {tokens : List Token} {c : Column} :
    column? source tokens = some c ↔
      (tokens.head?.any Token.isIdentifier && typeLength tokens != 0) = true ∧
        c = (bare source tokens).reading source (clauseSites everywhere tokens) := by
  cases tokens with
  | nil => simp [column?]
  | cons first rest =>
    rw [column?, readClauses_sites]
    change (if (first.isIdentifier && typeLength (first :: rest) != 0) = true then _ else _) = _ ↔ _
    split
    · rename_i h
      rw [Option.some_inj, eq_comm]
      exact (and_iff_right h).symm
    · rename_i h
      constructor
      · intro hn
        cases hn
      · intro hc
        exact absurd hc.1 h

theorem filter_dropWhile_paren (tokens : List Token) :
    (tokens.dropWhile fun t => !t.isSymbol '(').filter Token.isIdentifier =
      (tokens.dropWhile fun t => !t.isSymbol '(').tail.filter Token.isIdentifier := by
  cases h : tokens.dropWhile fun t => !t.isSymbol '(' with
  | nil => rfl
  | cons t rest =>
    have ht : t.isSymbol '(' = true := by
      have hn := List.head?_dropWhile_not (fun t => !Token.isSymbol t '(') tokens
      rw [h] at hn
      simpa using hn
    simp only [Token.isSymbol, Bool.and_eq_true, beq_iff_eq] at ht
    exact List.filter_cons_of_neg (by simp [Token.isIdentifier, ht.1])

theorem ofTokens?_eq (source : Text) (tokens : List Token) :
    ofTokens? source tokens =
      if isKey tokens then
        some (.primaryKey (((keyTail tokens).filter Token.isIdentifier).map Token.name))
      else if isNamed tokens then if (tokens.drop 2).isEmpty then none else some .constraint
      else if isTableConstraint tokens then some .constraint
      else (column? source tokens).map .column := by
  have hk := filter_dropWhile_paren (constraintTokens tokens)
  have hm : tokens.head?.any (·.isKeyword "CONSTRAINT") = isNamed tokens := rfl
  cases hn : isNamed tokens with
  | true =>
    have hc : constraintTokens tokens = tokens.drop 2 := if_pos hn
    simp only [ofTokens?, isKey, keyTail, hm, hn, hc, if_true, Bool.or_true] at hk ⊢
    generalize tokens.drop 2 = rest at hk ⊢
    cases rest with
    | nil => rfl
    | cons first rest =>
      simp only [hk, List.head?_cons, Option.any_some, List.isEmpty_cons, Bool.false_eq_true,
        if_false]
  | false =>
    have hc : constraintTokens tokens = tokens := if_neg (ne_true_of_eq_false hn)
    simp only [ofTokens?, isKey, keyTail, hm, hn, hc, Bool.false_eq_true, if_false,
      Bool.or_false] at hk ⊢
    cases tokens with
    | nil => rfl
    | cons first rest =>
      simp only [hk, List.head?_cons, Option.any_some]
      rfl

theorem ofTokens?_eq_column_iff {source : Text} {tokens : List Token} {c : Column} :
    ofTokens? source tokens = some (.column c) ↔ isColumn tokens = true ∧
      c = (bare source tokens).reading source (clauseSites everywhere tokens) := by
  rw [ofTokens?_eq, isColumn]
  cases isKey tokens with
  | true => simp
  | false =>
    cases isNamed tokens with
    | true => simp
    | false =>
      cases isTableConstraint tokens with
      | true => simp
      | false => simp [column?_eq_some_iff]

theorem ofTokens?_eq_key_iff {source : Text} {tokens : List Token} {names : List Text} :
    ofTokens? source tokens = some (.primaryKey names) ↔ isKey tokens = true ∧
      names = ((keyTail tokens).filter Token.isIdentifier).map Token.name := by
  rw [ofTokens?_eq]
  cases isKey tokens with
  | true => simp [eq_comm]
  | false =>
    cases isNamed tokens with
    | true => simp
    | false =>
      cases isTableConstraint tokens with
      | true => simp
      | false => simp

end Item

/-- Whether a run of tokens holds the name of a column. -/
def Run.names (name : Text) (tokens : List Token) : Bool :=
  tokens.any fun t => t.isIdentifier && Text.sameIgnoringCase t.name name

/-- The column when the names in the primary keys of its list are known. -/
def Column.underKeys (c : Column) (keys : List Text) : Column :=
  if keys.any (Text.sameIgnoringCase · c.name) then { c with nullable := false } else c

theorem Column.nullable_underKeys (c : Column) (keys : List Text) :
    (c.underKeys keys).nullable = false ↔
      c.nullable = false ∨ ∃ key ∈ keys, Text.sameIgnoringCase key c.name = true := by
  rw [underKeys, ← List.any_eq_true]
  split
  · rename_i h
    exact iff_of_true rfl (.inr h)
  · rename_i h
    exact (or_iff_left h).symm

namespace ColumnList

def keysOf : Option Item → List Text
  | some (.primaryKey names) => names
  | _ => []

def columnOf? : Option Item → Option Column
  | some (.column c) => some c
  | _ => none

theorem columns_ofItems (items : List (Fragment × Option Item)) :
    (ofItems items).columns = (items.filterMap fun p => columnOf? p.2).map fun c =>
      c.underKeys (items.flatMap fun p => keysOf p.2) := by
  unfold ofItems
  dsimp only
  congr 1
  · funext c
    rw [Column.underKeys]
    congr 4
    funext ⟨f, item⟩
    rcases item with _ | _ | _ | _ <;> rfl
  · congr 1
    funext ⟨f, item⟩
    rcases item with _ | _ | _ | _ <;> rfl

end ColumnList

structure Definition where
  text : Text
  tokens : List Token
  deriving DecidableEq, Repr

namespace Definition

def ofFragment (f : Fragment) : Except ParseError Definition := do
  let tokens ← significantTokens f.text f.position
  return ⟨f.text, tokens⟩

def item? (d : Definition) : Option Item :=
  Item.ofTokens? d.text d.tokens

def column (d : Definition) : Column :=
  (Item.bare d.text d.tokens).reading d.text (Item.clauseSites Item.everywhere d.tokens)

/-- The names that a primary key makes non-nullable. -/
def keyNames (d : Definition) : List Text :=
  if Item.isKey d.tokens then ((Item.keyTail d.tokens).filter Token.isIdentifier).map Token.name
  else []

theorem item?_eq_column_iff {d : Definition} {c : Column} :
    d.item? = some (.column c) ↔ Item.isColumn d.tokens = true ∧ c = d.column :=
  Item.ofTokens?_eq_column_iff

theorem keysOf_item? (d : Definition) : ColumnList.keysOf d.item? = d.keyNames := by
  have hk {names : List Text} : Item.ofTokens? d.text d.tokens = some (.primaryKey names) ↔ _ :=
    Item.ofTokens?_eq_key_iff
  rw [item?, keyNames]
  split
  · rename_i h
    rw [hk.mpr ⟨h, rfl⟩]
    rfl
  · rename_i h
    generalize Item.ofTokens? d.text d.tokens = item at hk ⊢
    rcases item with _ | _ | _ | _
    · rfl
    · rfl
    · exact absurd (hk.mp rfl).1 h
    · rfl

theorem columnOf?_item? (d : Definition) :
    ColumnList.columnOf? d.item? = if Item.isColumn d.tokens then some d.column else none := by
  have hc {c : Column} := item?_eq_column_iff (d := d) (c := c)
  split
  · rename_i h
    rw [hc.mpr ⟨h, rfl⟩]
    rfl
  · rename_i h
    generalize d.item? = item at hc ⊢
    rcases item with _ | _ | _ | _
    · rfl
    · exact absurd (hc.mp rfl).1 h
    · rfl
    · rfl

end Definition

namespace ColumnList

/-- The definitions between the top-level commas of a list. -/
def definitions (body : Text) (origin : Position) : Except ParseError (List Definition) := do
  let fragments ← splitTopLevel body origin
  fragments.mapM Definition.ofFragment

/-- What a definition declares, beside its text. -/
def located (d : Definition) : Fragment × Option Item :=
  (⟨d.text, .start⟩, d.item?)

def ofDefinitions (ds : List Definition) : ColumnList :=
  ofItems (ds.map located)

theorem parse_eq (body : Text) (origin : Position) :
    parse body origin = (definitions body origin).map ofDefinitions := by
  have hp (x : Except ParseError (List (Fragment × Option Item))) :
      x.map ofItems = (x.map (List.map fun p => (⟨p.1.text, .start⟩, p.2))).map ofItems := by
    cases x with
    | error e => rfl
    | ok items => exact congrArg Except.ok (ofItems_map (fun _ => rfl) items).symm
  rw [parse, definitions]
  cases splitTopLevel body origin with
  | error e => rfl
  | ok fragments =>
    refine (hp (fragments.mapM fun f => f.item? >>= fun item => pure (f, item))).trans ?_
    have hd : (fragments.mapM Definition.ofFragment).map ofDefinitions =
        ((fragments.mapM Definition.ofFragment).map (List.map located)).map ofItems := by
      cases fragments.mapM Definition.ofFragment <;> rfl
    refine Eq.trans ?_ hd.symm
    rw [map_mapM, map_mapM]
    congr 2
    funext f
    rw [Fragment.item?, Definition.ofFragment]
    cases significantTokens f.text f.position <;> rfl

theorem columns_ofDefinitions (ds : List Definition) :
    (ofDefinitions ds).columns = (ds.filter fun d => Item.isColumn d.tokens).map fun d =>
      d.column.underKeys (ds.flatMap Definition.keyNames) := by
  rw [ofDefinitions, columns_ofItems, List.flatMap_map, List.filterMap_map]
  simp only [Function.comp_def, located, Definition.keysOf_item?, Definition.columnOf?_item?]
  rw [← List.filterMap_eq_map, ← List.filterMap_eq_map, List.filterMap_filter,
    List.filterMap_filterMap]
  apply List.filterMap_congr
  intro d _
  split <;> rfl

end ColumnList

end Bindery

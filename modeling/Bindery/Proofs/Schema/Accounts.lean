import Bindery.Proofs.Catalog.Merging
import Bindery.Proofs.Column.Definition
import Bindery.Proofs.Schema.Lists
import Bindery.Proofs.Schema.Placement

namespace Bindery

/-- What a list of columns describes. -/
inductive ColumnOwner where
  | table (name : Text)
  | composite (name : Text)
  /-- The result of the function that the statement creates. -/
  | result (s : Statement)

def ColumnOwner.isResult : ColumnOwner → Bool
  | result _ => true
  | _ => false

namespace ColumnList

/-- A list of columns has the columns of its fragments and the texts of those that are not
understood. -/
structure Reads (list : ColumnList) (fragments : List Fragment) : Prop where
  item : ∀ f ∈ fragments, ∃ item, f.item? = .ok item
  columns : ∀ f ∈ fragments, ∀ c, f.item? = .ok (some (.column c)) →
    ∃ d ∈ list.columns, d.name = c.name
  skipped : ∀ text, text ∈ list.skipped ↔ ∃ f ∈ fragments, f.item? = .ok none ∧ f.text = text

theorem mem_items_iff {fragments : List Fragment} {items : List (Fragment × Option Item)}
    (h : (fragments.mapM fun f => do
      let item ← f.item?
      return (f, item)) = .ok items) {f : Fragment} {item : Option Item} :
    (f, item) ∈ items ↔ f ∈ fragments ∧ f.item? = .ok item := by
  rw [mem_iff_of_mapM h]
  constructor
  · rintro ⟨g, hg, he⟩
    obtain ⟨other, ho, he⟩ := bind_eq_ok_iff.mp he
    cases he
    exact ⟨hg, ho⟩
  · rintro ⟨hf, hi⟩
    exact ⟨f, hf, by rw [hi]; rfl⟩

theorem mem_skipped_ofItems {items : List (Fragment × Option Item)} {text : Text} :
    text ∈ (ofItems items).skipped ↔ ∃ f, (f, none) ∈ items ∧ f.text = text := by
  unfold ofItems
  rw [List.mem_filterMap]
  constructor
  · rintro ⟨⟨f, item⟩, hi, ht⟩
    cases item with
    | none => exact ⟨f, hi, Option.some.inj ht⟩
    | some item => cases ht
  · rintro ⟨f, hi, rfl⟩
    exact ⟨(f, none), hi, rfl⟩

theorem exists_reads {body : Text} {origin : Position} {list : ColumnList}
    (h : parse body origin = .ok list) :
    ∃ fragments, splitTopLevel body origin = .ok fragments ∧ list.Reads fragments := by
  obtain ⟨fragments, hs, h⟩ := bind_eq_ok_iff.mp h
  obtain ⟨items, hm, h⟩ := bind_eq_ok_iff.mp h
  cases h
  refine ⟨fragments, hs, ?_, ?_, ?_⟩
  · intro f hf
    obtain ⟨p, hp⟩ := exists_mapM_iff.mp ⟨items, hm⟩ f hf
    obtain ⟨item, hi, -⟩ := bind_eq_ok_iff.mp hp
    exact ⟨item, hi⟩
  · intro f hf c hc
    have hi := (mem_items_iff hm).mpr ⟨hf, hc⟩
    rw [columns_ofItems]
    refine ⟨_, List.mem_map_of_mem (List.mem_filterMap.mpr ⟨_, hi, rfl⟩), ?_⟩
    rw [Column.underKeys]
    split
    · rfl
    · rfl
  · intro text
    rw [mem_skipped_ofItems]
    constructor
    · rintro ⟨f, hi, ht⟩
      obtain ⟨hf, hn⟩ := (mem_items_iff hm).mp hi
      exact ⟨f, hf, hn, ht⟩
    · rintro ⟨f, hf, hn, ht⟩
      exact ⟨f, (mem_items_iff hm).mpr ⟨hf, hn⟩, ht⟩

end ColumnList

namespace Declaration

def skipped : Declaration → List Text
  | table _ skipped => skipped
  | composite _ skipped => skipped
  | _ => []

def table? : Declaration → Option Table
  | .table entry _ => some entry
  | _ => none

def composite? : Declaration → Option Composite
  | .composite entry _ => some entry
  | _ => none

end Declaration

namespace Catalog

theorem not_skippedFragment_notice (name : Text) (outcome : Registration) (context text : Text) :
    .skippedFragment context text ∉ notice name outcome := by
  cases outcome with
  | ambiguous index bare => simp [notice]
  | _ => simp [notice]

theorem skippedFragment_declare_iff (c : Catalog) (d : Declaration) (text : Text) :
    (∃ context, .skippedFragment context text ∈ (c.declare d).2) ↔ text ∈ d.skipped := by
  have hn := not_skippedFragment_notice
  cases d with
  | table table skipped => simp [declare, Declaration.skipped, hn]
  | composite composite skipped => simp [declare, Declaration.skipped, hn]
  | enum enum => simp [declare, Declaration.skipped, hn]
  | domain domain => simp [declare, Declaration.skipped, hn]
  | function s => simp [declare, Declaration.skipped]
  | other => simp [declare, Declaration.skipped]

theorem skippedFragment_declareAll_iff (c : Catalog) (ds : List Declaration) (text : Text) :
    (∃ context, .skippedFragment context text ∈ (c.declareAll ds).2) ↔
      ∃ d ∈ ds, text ∈ d.skipped := by
  induction ds generalizing c with
  | nil => simp [declareAll]
  | cons d ds ih =>
    simp only [declareAll, List.mem_append, exists_or, List.exists_mem_cons_iff]
    rw [skippedFragment_declare_iff, ih]

theorem symbols_declareAll {α : Type} [Entry α] (symbols : Catalog → SymbolTable α)
    (entry : Declaration → Option α)
    (h : ∀ c d, symbols (c.declare d).1 = (symbols c).registerAll (entry d).toList) (c : Catalog)
    (ds : List Declaration) :
    symbols (c.declareAll ds).1 = (symbols c).registerAll (ds.filterMap entry) := by
  induction ds generalizing c with
  | nil => rfl
  | cons d ds ih =>
    have he : (d :: ds).filterMap entry = (entry d).toList ++ ds.filterMap entry := by
      cases hd : entry d with
      | none => rw [List.filterMap_cons_none hd]; rfl
      | some e => rw [List.filterMap_cons_some hd]; rfl
    rw [he, SymbolTable.registerAll_append, ← h, ← ih]
    rfl

theorem tables_declareAll (ds : List Declaration) :
    (declareAll {} ds).1.tables = SymbolTable.registerAll {} (ds.filterMap Declaration.table?) := by
  apply symbols_declareAll tables
  intro c d
  cases d <;> rfl

theorem composites_declareAll (ds : List Declaration) :
    (declareAll {} ds).1.composites =
      SymbolTable.registerAll {} (ds.filterMap Declaration.composite?) := by
  apply symbols_declareAll composites
  intro c d
  cases d <;> rfl

end Catalog

/-- The columns of a table or the fields of a composite type that a statement lists. -/
inductive Statement.DeclaresColumns (s : Statement) : ColumnOwner → Run.Parenthesized → Prop
  | table {tokens rest : List Token} {name : Text} {opening : Token} {list : Run.Parenthesized} :
      significantTokens s.text s.position = .ok tokens →
      s.OpensList tokens (.table name) opening rest →
      Run.parenthesized s.text opening rest = .ok list → DeclaresColumns s (.table name) list
  | composite {tokens rest : List Token} {name : Text} {opening : Token}
      {list : Run.Parenthesized} : significantTokens s.text s.position = .ok tokens →
      s.OpensList tokens (.composite name) opening rest →
      Run.parenthesized s.text opening rest = .ok list → DeclaresColumns s (.composite name) list

/-- The return clause behind the parameters comes to the parenthesis that opens its columns. -/
inductive Signature.OpensResult (depth : Nat) : List Token → Token → List Token → Prop
  | intro {returns table opening : Token} {rest more : List Token} {isSet : Bool} :
      returns.isKeyword "RETURNS" = true →
      ReturnSpec.splitSet (rest.take (Run.topIndex (·.isAnyKeyword clauseEnds) depth 0 rest)) =
        (isSet, table :: opening :: more) →
      table.isKeyword "TABLE" = true → opening.isSymbol '(' = true →
      OpensResult depth (returns :: rest) opening more

/-- The columns of the result that the statement of a function lists. -/
inductive Statement.ReturnsColumns (s : Statement) : Run.Parenthesized → Prop
  | intro {tokens name rest more : List Token} {opening inner : Token}
      {params list : Run.Parenthesized} : s.createsFunction = true →
      significantTokens s.text s.position = .ok tokens →
      Signature.OpensParams tokens name opening rest →
      Run.parenthesized s.text opening rest = .ok params →
      Signature.OpensResult (Run.depth 0 (tokens.take (tokens.length - params.after.length)))
        params.after inner more →
      Run.parenthesized s.text inner more = .ok list → ReturnsColumns s list

def Schema.HasStatement (functions : Text) (shared : Option Text) (s : Statement) : Prop :=
  (∃ text statements, shared = some text ∧ segment text = .ok statements ∧ s ∈ statements) ∨
    ∃ statements, segment functions = .ok statements ∧ s ∈ statements

/-- The lists of columns in the two texts; the functions of the shared text are left out. -/
inductive Schema.Lists (functions : Text) (shared : Option Text) :
    ColumnOwner → Run.Parenthesized → Prop
  | declared {s : Statement} {owner : ColumnOwner} {list : Run.Parenthesized} :
      HasStatement functions shared s → s.DeclaresColumns owner list →
      Lists functions shared owner list
  | returned {statements : List Statement} {s : Statement} {list : Run.Parenthesized} :
      segment functions = .ok statements → s ∈ statements → s.ReturnsColumns list →
      Lists functions shared (.result s) list

/-- A fragment with this text is not understood in the list of a table or of a composite type. -/
def Schema.Skips (functions : Text) (shared : Option Text) (text : Text) : Prop :=
  ∃ s owner list fragments, HasStatement functions shared s ∧ s.DeclaresColumns owner list ∧
    splitTopLevel list.text list.origin = .ok fragments ∧
      ∃ f ∈ fragments, f.item? = .ok none ∧ f.text = text

/-- The columns in a schema of what a list describes. -/
inductive ColumnOwner.Columns (schema : Schema) : ColumnOwner → List Column → Prop
  | table {name : Text} {entry : Table} : schema.catalog.tables.get? name = some entry →
      Columns schema (.table name) entry.columns
  | composite {name : Text} {entry : Composite} :
      schema.catalog.composites.get? name = some entry →
      Columns schema (.composite name) entry.fields
  | result {s : Statement} {signature : Signature} {columns : List Column} :
      signature ∈ schema.functions → Signature.parse s schema.catalog = .ok signature →
      signature.returns.kind = .explicit columns → Columns schema (.result s) columns

/-- A fragment of a list is accounted for: its column is there, it is a constraint, or it is
reported. -/
inductive Fragment.Accounted (schema : Schema) (owner : ColumnOwner) (f : Fragment) : Prop
  | column {c d : Column} {columns : List Column} : f.item? = .ok (some (.column c)) →
      owner.Columns schema columns → d ∈ columns → d.sameName c = true → Accounted schema owner f
  | key {names : List Text} : f.item? = .ok (some (.primaryKey names)) → Accounted schema owner f
  | constraint : f.item? = .ok (some .constraint) → Accounted schema owner f
  | reported {context : Text} : .skippedFragment context f.text ∈ schema.diagnostics →
      Accounted schema owner f

namespace Statement

variable {s : Statement} {owner : ColumnOwner} {list : Run.Parenthesized} {d : Declaration}

/-- What is declared from a list of columns. -/
inductive DeclaredFrom (columns : ColumnList) : ColumnOwner → Declaration → Prop
  | table {name : Text} : DeclaredFrom columns (.table name)
      (.table ⟨name, columns.columns⟩ columns.skipped)
  | composite {name : Text} : DeclaredFrom columns (.composite name)
      (.composite ⟨name, columns.columns.map fun c => { c with nullable := true }⟩ columns.skipped)

theorem DeclaresColumns.declaredFrom (h : s.DeclaresColumns owner list)
    (hd : Declaration.ofStatement s = .ok d) :
    ∃ columns, ColumnList.parse list.text list.origin = .ok columns ∧
      DeclaredFrom columns owner d := by
  cases h with
  | table ht ho hl =>
    rw [ho.ofStatement_eq ht, hl] at hd
    obtain ⟨_, ⟨⟩, hd⟩ := bind_eq_ok_iff.mp hd
    obtain ⟨columns, hc, hd⟩ := bind_eq_ok_iff.mp hd
    cases hd
    exact ⟨columns, hc, .table⟩
  | composite ht ho hl =>
    rw [ho.ofStatement_eq ht, hl] at hd
    obtain ⟨_, ⟨⟩, hd⟩ := bind_eq_ok_iff.mp hd
    obtain ⟨columns, hc, hd⟩ := bind_eq_ok_iff.mp hd
    cases hd
    exact ⟨columns, hc, .composite⟩

theorem exists_declaresColumns (hd : Declaration.ofStatement s = .ok d) {text : Text}
    (hs : text ∈ d.skipped) :
    ∃ owner list columns, s.DeclaresColumns owner list ∧
      ColumnList.parse list.text list.origin = .ok columns ∧ text ∈ columns.skipped := by
  cases ht : significantTokens s.text s.position with
  | error e =>
    rw [Declaration.ofStatement, ht] at hd
    cases hd
  | ok tokens =>
    rcases Declaration.ofStatement_cases ht with ⟨owner, opening, rest, ho⟩ | hn
    · rw [ho.ofStatement_eq ht] at hd
      obtain ⟨list, hl, hd⟩ := bind_eq_ok_iff.mp hd
      cases owner with
      | table name =>
        obtain ⟨columns, hc, hd⟩ := bind_eq_ok_iff.mp hd
        cases hd
        exact ⟨_, list, columns, .table ht ho hl, hc, hs⟩
      | enum name =>
        cases hd
        cases hs
      | composite name =>
        obtain ⟨columns, hc, hd⟩ := bind_eq_ok_iff.mp hd
        cases hd
        exact ⟨_, list, columns, .composite ht ho hl, hc, hs⟩
    · rw [hd] at hn
      cases hn with
      | domain => cases hs
      | function => cases hs
      | other => cases hs

end Statement

namespace Signature

theorem OpensResult.returnSpec_eq {s : Statement} {depth : Nat} {after more : List Token}
    {opening : Token} (h : OpensResult depth after opening more) (name : Text)
    (params : List Parameter) (catalog : Catalog) :
    returnSpec s name params catalog depth after = (do
      let list ← Run.parenthesized s.text opening more
      let columns ← ColumnList.parse list.text list.origin
      return ⟨.explicit columns.columns, true⟩) := by
  cases h with
  | @intro returns table opening rest more isSet hr hs ht ho =>
    rw [returnSpec]
    generalize rest.take (Run.topIndex (·.isAnyKeyword clauseEnds) depth 0 rest) = clause at hs ⊢
    have hn : ¬ clause.isEmpty = true := by
      intro hn
      rw [List.isEmpty_iff.mp hn] at hs
      cases hs
    rw [if_pos hr, if_neg hn, ReturnSpec.parse, hs]
    dsimp only
    rw [ht, ho]
    rfl

theorem returns_of_returnsColumns {s : Statement} {list : Run.Parenthesized}
    (h : s.ReturnsColumns list) {catalog : Catalog} {signature : Signature}
    (hp : parse s catalog = .ok signature) :
    ∃ columns, ColumnList.parse list.text list.origin = .ok columns ∧
      signature.returns.kind = .explicit columns.columns := by
  cases h with
  | intro _ ht ho hl hr hi =>
    rw [ho.parse_eq ht, hl] at hp
    obtain ⟨_, ⟨⟩, hp⟩ := bind_eq_ok_iff.mp hp
    obtain ⟨fragments, -, hp⟩ := bind_eq_ok_iff.mp hp
    obtain ⟨params, -, hp⟩ := bind_eq_ok_iff.mp hp
    obtain ⟨returns, hs, hp⟩ := bind_eq_ok_iff.mp hp
    cases hp
    rw [hr.returnSpec_eq, hi] at hs
    obtain ⟨_, ⟨⟩, hs⟩ := bind_eq_ok_iff.mp hs
    obtain ⟨columns, hc, hs⟩ := bind_eq_ok_iff.mp hs
    cases hs
    exact ⟨columns, hc, rfl⟩

end Signature

namespace Schema

variable {functions : Text} {shared : Option Text} {schema : Schema} {owner : ColumnOwner}
  {list : Run.Parenthesized}

theorem hasStatement_iff {ss fs : List Statement}
    (hs : (shared.map segment).getD (.ok []) = .ok ss) (hf : segment functions = .ok fs)
    {s : Statement} : HasStatement functions shared s ↔ s ∈ ss ++ fs := by
  rw [HasStatement, List.mem_append]
  constructor
  · rintro (⟨text, statements, rfl, ht, hm⟩ | ⟨statements, ht, hm⟩)
    · cases ht.symm.trans hs
      exact .inl hm
    · cases ht.symm.trans hf
      exact .inr hm
  · rintro (hm | hm)
    · cases shared with
      | none =>
        cases hs
        cases hm
      | some text => exact .inl ⟨text, ss, rfl, hs, hm⟩
    · exact .inr ⟨fs, hf, hm⟩

theorem exists_history (h : parse functions shared = .ok schema) :
    ∃ ds, Catalog.declareAll {} ds = (schema.catalog, schema.diagnostics) ∧
      (∀ d, d ∈ ds ↔
        ∃ s, HasStatement functions shared s ∧ Declaration.ofStatement s = .ok d) ∧
      ∀ s, HasStatement functions shared s → ∃ d, Declaration.ofStatement s = .ok d := by
  obtain ⟨ss, fs, sd, fd, hs, hf, hsd, hfd, hd, -⟩ := exists_statements h
  refine ⟨sd ++ fd, hd, ?_, ?_⟩
  · intro d
    simp only [hasStatement_iff hs hf, List.mem_append, mem_iff_of_mapM hsd, mem_iff_of_mapM hfd,
      or_and_right, exists_or]
  · intro s hm
    rcases List.mem_append.mp ((hasStatement_iff hs hf).mp hm) with hm | hm
    · exact exists_mapM_iff.mp ⟨sd, hsd⟩ s hm
    · exact exists_mapM_iff.mp ⟨fd, hfd⟩ s hm

theorem exists_signature (h : parse functions shared = .ok schema) {statements : List Statement}
    (ht : segment functions = .ok statements) {s : Statement} (hs : s ∈ statements)
    (hc : s.createsFunction = true) :
    ∃ signature ∈ schema.functions, Signature.parse s schema.catalog = .ok signature := by
  obtain ⟨_, _, _, fd, -, hf, -, hfd, -, hm⟩ := exists_statements h
  cases ht.symm.trans hf
  have hin : s ∈ fd.filterMap Declaration.function? := by
    rw [(Declaration.apart_of_mapM hfd).2]
    exact List.mem_filter.mpr ⟨hs, hc⟩
  obtain ⟨signature, hp⟩ := exists_mapM_iff.mp ⟨_, hm⟩ s hin
  exact ⟨signature, (mem_iff_of_mapM hm).mpr ⟨s, hin, hp⟩, hp⟩

theorem reported_iff (h : parse functions shared = .ok schema) (text : Text) :
    (∃ context, .skippedFragment context text ∈ schema.diagnostics) ↔
      Skips functions shared text := by
  obtain ⟨ds, hd, hm, hr⟩ := exists_history h
  have hi := Catalog.skippedFragment_declareAll_iff {} ds text
  rw [hd] at hi
  rw [hi]
  constructor
  · rintro ⟨d, hin, ht⟩
    obtain ⟨s, hs, ho⟩ := (hm d).mp hin
    obtain ⟨owner, list, columns, hl, hc, ht⟩ := Statement.exists_declaresColumns ho ht
    obtain ⟨fragments, hsplit, hreads⟩ := ColumnList.exists_reads hc
    exact ⟨s, owner, list, fragments, hs, hl, hsplit, (hreads.skipped text).mp ht⟩
  · rintro ⟨s, owner, list, fragments, hs, hl, hsplit, hf⟩
    obtain ⟨d, ho⟩ := hr s hs
    obtain ⟨columns, hc, hfrom⟩ := hl.declaredFrom ho
    obtain ⟨again, ha, hreads⟩ := ColumnList.exists_reads hc
    cases ha.symm.trans hsplit
    have ht := (hreads.skipped text).mpr hf
    refine ⟨d, (hm d).mpr ⟨s, hs, ho⟩, ?_⟩
    cases hfrom with
    | table => exact ht
    | composite => exact ht

/-- The columns of a list are in the schema, up to the case of ASCII letters in their names. -/
theorem exists_columns (h : parse functions shared = .ok schema)
    (hl : Lists functions shared owner list) :
    ∃ columns held, ColumnList.parse list.text list.origin = .ok columns ∧
      owner.Columns schema held ∧
        ∀ c ∈ columns.columns, ∃ d ∈ held, Column.sameName d c = true := by
  cases hl with
  | @declared s _ _ hs hl =>
    obtain ⟨ds, hd, hm, hr⟩ := exists_history h
    have hcatalog : schema.catalog = (Catalog.declareAll {} ds).1 := by rw [hd]
    obtain ⟨d, ho⟩ := hr s hs
    obtain ⟨columns, hc, hfrom⟩ := hl.declaredFrom ho
    have hin : d ∈ ds := (hm d).mpr ⟨s, hs, ho⟩
    cases hfrom with
    | table =>
      have hmem : _ ∈ ds.filterMap Declaration.table? := List.mem_filterMap.mpr ⟨_, hin, rfl⟩
      obtain ⟨entry, he, hp⟩ := SymbolTable.exists_get?_of_mem gathers_columns hmem
      rw [← Catalog.tables_declareAll, ← hcatalog] at he
      exact ⟨columns, entry.columns, hc, .table he, hp⟩
    | composite =>
      have hmem : _ ∈ ds.filterMap Declaration.composite? := List.mem_filterMap.mpr ⟨_, hin, rfl⟩
      obtain ⟨entry, he, hp⟩ := SymbolTable.exists_get?_of_mem gathers_fields hmem
      rw [← Catalog.composites_declareAll, ← hcatalog] at he
      refine ⟨columns, entry.fields, hc, .composite he, ?_⟩
      intro c hcol
      exact hp { c with nullable := true } (List.mem_map.mpr ⟨c, hcol, rfl⟩)
  | @returned statements s _ ht hs hl =>
    have hcreates : s.createsFunction = true := by
      cases hl with
      | intro hcreates => exact hcreates
    obtain ⟨signature, hin, hp⟩ := exists_signature h ht hs hcreates
    obtain ⟨columns, hc, hr⟩ := Signature.returns_of_returnsColumns hl hp
    exact ⟨columns, columns.columns, hc, .result hin hp hr,
      fun c hcol => ⟨c, hcol, Column.sameName_refl c⟩⟩

/--
Every fragment of every list of columns is read. In the list of a table or of a composite type it is
accounted for. In the result of a function it is accounted for exactly if it is understood or a
fragment with the same text is reported from another list.
-/
theorem parse_accounted_iff (h : parse functions shared = .ok schema)
    (hl : Lists functions shared owner list) :
    ∃ fragments, splitTopLevel list.text list.origin = .ok fragments ∧
      ∀ f ∈ fragments, (∃ item, f.item? = .ok item) ∧
        (f.Accounted schema owner ↔
          (owner.isResult = true → f.item? = .ok none → Skips functions shared f.text)) := by
  obtain ⟨columns, held, hc, ho, hp⟩ := exists_columns h hl
  obtain ⟨fragments, hs, hr⟩ := ColumnList.exists_reads hc
  refine ⟨fragments, hs, ?_⟩
  intro f hf
  refine ⟨hr.item f hf, ?_, ?_⟩
  · intro ha _ hn
    cases ha with
    | column hi => cases hi.symm.trans hn
    | key hi => cases hi.symm.trans hn
    | constraint hi => cases hi.symm.trans hn
    | reported hd => exact (reported_iff h f.text).mp ⟨_, hd⟩
  · intro hn
    obtain ⟨item, hi⟩ := hr.item f hf
    cases item with
    | none =>
      have hskips : Skips functions shared f.text := by
        cases hl with
        | declared hst hl => exact ⟨_, _, list, fragments, hst, hl, hs, f, hf, hi, rfl⟩
        | returned => exact hn rfl hi
      obtain ⟨context, hd⟩ := (reported_iff h f.text).mpr hskips
      exact .reported hd
    | some item =>
      cases item with
      | column c =>
        obtain ⟨d, hd, hname⟩ := hr.columns f hf c hi
        obtain ⟨e, he, hsame⟩ := hp d hd
        refine .column hi ho he ?_
        rw [Column.sameName, ← hname]
        exact hsame
      | primaryKey names => exact .key hi
      | constraint => exact .constraint hi

/-- A function whose result has a column without a type. -/
def untyped : Statement :=
  ⟨"create function f()returns table(a b,c)".toList, .start, none⟩

def untypedList : Run.Parenthesized :=
  ⟨[⟨.word, "a".toList, 33, ⟨1, 34⟩⟩, ⟨.word, "b".toList, 35, ⟨1, 36⟩⟩,
    ⟨.symbol, ",".toList, 36, ⟨1, 37⟩⟩, ⟨.word, "c".toList, 37, ⟨1, 38⟩⟩],
    "a b,c".toList, ⟨1, 34⟩, []⟩

def untypedSchema : Schema :=
  { functions := [⟨"f".toList, "f".toList, none, [],
      ⟨.explicit [⟨"a".toList, "b".toList, true, none⟩], true⟩, .start⟩] }

theorem lists_untyped : Lists untyped.text none (.result untyped) untypedList := by
  have ht : significantTokens untyped.text untyped.position = .ok
      ([⟨.word, "create".toList, 0, ⟨1, 1⟩⟩, ⟨.word, "function".toList, 7, ⟨1, 8⟩⟩,
        ⟨.word, "f".toList, 16, ⟨1, 17⟩⟩, ⟨.symbol, "(".toList, 17, ⟨1, 18⟩⟩,
        ⟨.symbol, ")".toList, 18, ⟨1, 19⟩⟩, ⟨.word, "returns".toList, 19, ⟨1, 20⟩⟩,
        ⟨.word, "table".toList, 27, ⟨1, 28⟩⟩, ⟨.symbol, "(".toList, 32, ⟨1, 33⟩⟩] ++
        untypedList.inner ++ [⟨.symbol, ")".toList, 38, ⟨1, 39⟩⟩]) := by
    decide +kernel
  have hs : segment untyped.text = .ok [untyped] := by
    decide +kernel
  refine .returned hs List.mem_cons_self ?_
  exact .intro (by decide +kernel) ht (.intro rfl rfl rfl) rfl (.intro rfl rfl rfl rfl) rfl

theorem parse_accounted_untyped :
    parse untyped.text none = .ok untypedSchema ∧
      Lists untyped.text none (.result untyped) untypedList ∧
      ∃ fragments, splitTopLevel untypedList.text untypedList.origin = .ok fragments ∧
        ⟨"a b".toList, ⟨1, 34⟩⟩ ∈ fragments ∧
          Fragment.Accounted untypedSchema (.result untyped) ⟨"a b".toList, ⟨1, 34⟩⟩ := by
  have hp : parse untyped.text none = .ok untypedSchema := by
    decide +kernel
  have hs : splitTopLevel untypedList.text untypedList.origin =
      .ok [⟨"a b".toList, ⟨1, 34⟩⟩, ⟨"c".toList, ⟨1, 38⟩⟩] := by
    decide +kernel
  have hi : Fragment.item? ⟨"a b".toList, ⟨1, 34⟩⟩ ≠ .ok none := by
    decide +kernel
  obtain ⟨fragments, hf, ha⟩ := parse_accounted_iff hp lists_untyped
  cases hf.symm.trans hs
  exact ⟨hp, lists_untyped, _, hs, List.mem_cons_self,
    (ha _ List.mem_cons_self).2.mpr fun _ hn => absurd hn hi⟩

/-- The column without a type is neither in the result nor reported. -/
theorem untyped_column_lost :
    parse untyped.text none = .ok untypedSchema ∧
      Lists untyped.text none (.result untyped) untypedList ∧
      ∃ fragments, splitTopLevel untypedList.text untypedList.origin = .ok fragments ∧
        ⟨"c".toList, ⟨1, 38⟩⟩ ∈ fragments ∧
          ¬ Fragment.Accounted untypedSchema (.result untyped) ⟨"c".toList, ⟨1, 38⟩⟩ := by
  have hs : splitTopLevel untypedList.text untypedList.origin =
      .ok [⟨"a b".toList, ⟨1, 34⟩⟩, ⟨"c".toList, ⟨1, 38⟩⟩] := by
    decide +kernel
  have hn : Fragment.item? ⟨"c".toList, ⟨1, 38⟩⟩ = .ok none := by
    decide +kernel
  refine ⟨by decide +kernel, lists_untyped, _, hs, by simp, ?_⟩
  intro ha
  cases ha with
  | column hi => cases hi.symm.trans hn
  | key hi => cases hi.symm.trans hn
  | constraint hi => cases hi.symm.trans hn
  | reported hd => cases hd

end Schema

end Bindery

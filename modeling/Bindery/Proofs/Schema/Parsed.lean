import Bindery.Proofs.Basic.Except
import Bindery.Proofs.Catalog.Registration
import Bindery.Schema

namespace Bindery

/-- The notices that come up while a schema is read. -/
inductive Diagnostic.OfReading : Diagnostic → Prop
  | skipped {context fragment : Text} : OfReading (.skippedFragment context fragment)
  | ambiguous {qualified bare : Text} : OfReading (.ambiguousName qualified bare)

namespace Catalog

/-- Every symbol table of the catalog is consistent. -/
structure Consistent (c : Catalog) : Prop where
  tables : c.tables.Consistent
  composites : c.composites.Consistent
  enums : c.enums.Consistent
  domains : c.domains.Consistent

theorem consistent_empty : Consistent {} :=
  ⟨SymbolTable.consistent_empty, SymbolTable.consistent_empty, SymbolTable.consistent_empty,
    SymbolTable.consistent_empty⟩

theorem Consistent.declare {c : Catalog} (h : c.Consistent) (d : Declaration) :
    (c.declare d).1.Consistent := by
  cases d with
  | table table _ => exact { h with tables := (c.tables.register_spec table).consistent h.tables }
  | composite composite _ =>
    exact { h with
      composites := (c.composites.register_spec composite).consistent h.composites }
  | enum enum => exact { h with enums := (c.enums.register_spec enum).consistent h.enums }
  | domain domain =>
    exact { h with domains := (c.domains.register_spec domain).consistent h.domains }
  | function _ => exact h
  | other => exact h

theorem Consistent.declareAll {c : Catalog} (h : c.Consistent) (ds : List Declaration) :
    (c.declareAll ds).1.Consistent := by
  induction ds generalizing c with
  | nil => exact h
  | cons d ds ih => exact ih (h.declare d)

theorem ofReading_notice (name : Text) (outcome : Registration) :
    ∀ d ∈ notice name outcome, d.OfReading := by
  intro d hd
  cases outcome with
  | ambiguous index bare =>
    rw [List.mem_singleton.mp hd]
    exact .ambiguous
  | _ => cases hd

theorem ofReading_skipped (context : Text) (skipped : List Text) :
    ∀ d ∈ skipped.map (.skippedFragment context), Diagnostic.OfReading d := by
  intro d hd
  obtain ⟨_, _, rfl⟩ := List.mem_map.mp hd
  exact .skipped

theorem ofReading_declare (c : Catalog) (declaration : Declaration) :
    ∀ d ∈ (c.declare declaration).2, d.OfReading := by
  intro d hd
  cases declaration with
  | table _ skipped =>
    exact (List.mem_append.mp hd).elim (ofReading_skipped _ _ d) (ofReading_notice _ _ d)
  | composite _ skipped =>
    exact (List.mem_append.mp hd).elim (ofReading_skipped _ _ d) (ofReading_notice _ _ d)
  | enum _ => exact ofReading_notice _ _ d hd
  | domain _ => exact ofReading_notice _ _ d hd
  | function _ => cases hd
  | other => cases hd

theorem ofReading_declareAll (c : Catalog) (ds : List Declaration) :
    ∀ d ∈ (c.declareAll ds).2, d.OfReading := by
  induction ds generalizing c with
  | nil => simp [declareAll]
  | cons declaration ds ih =>
    intro d hd
    exact (List.mem_append.mp hd).elim (ofReading_declare c declaration d) (ih _ d)

end Catalog

namespace SymbolTable

theorem Consistent.indexOf?_lt {α : Type} [Entry α] {table : SymbolTable α}
    (h : table.Consistent) {name : Text} {i : Nat} (hi : table.indexOf? name = some i) :
    i < table.entries.length := by
  rcases Option.or_eq_some_iff.mp hi with hi | ⟨_, hi⟩
  · exact h.valid hi
  · exact h.valid hi

end SymbolTable

/-- The ways in which the result of a function is read. -/
inductive ReturnSpec.Read (c : Catalog) (params : List Parameter) : ReturnSpec → Prop
  | implicit : Read c params (.implicit params)
  | listed (columns : List Column) : Read c params ⟨.explicit columns, true⟩
  | typed (raw : Text) (isSet : Bool) : Read c params (.ofType raw isSet params c)

theorem ReturnSpec.read_of_parse {source : Text} {clause : List Token} {params : List Parameter}
    {c : Catalog} {spec : ReturnSpec} (h : parse source clause params c = .ok spec) :
    Read c params spec := by
  unfold parse at h
  dsimp only at h
  split at h
  · split at h
    · obtain ⟨list, _, h⟩ := bind_eq_ok_iff.mp h
      obtain ⟨columns, _, h⟩ := bind_eq_ok_iff.mp h
      cases h
      exact .listed _
    · cases h
      exact .typed _ _
  · cases h
    exact .typed _ _

theorem Signature.read_of_returnSpec {s : Statement} {name : Text} {params : List Parameter}
    {c : Catalog} {depth : Nat} {after : List Token} {spec : ReturnSpec}
    (h : returnSpec s name params c depth after = .ok spec) : ReturnSpec.Read c params spec := by
  unfold returnSpec at h
  split at h
  · cases h
    exact .implicit
  · split at h
    · dsimp only at h
      split at h
      · cases h
      · exact ReturnSpec.read_of_parse h
    · cases h
      exact .implicit

theorem Signature.read_of_parse {s : Statement} {c : Catalog} {f : Signature}
    (h : parse s c = .ok f) : ReturnSpec.Read c f.params f.returns := by
  unfold parse at h
  obtain ⟨tokens, _, h⟩ := bind_eq_ok_iff.mp h
  split at h
  · cases h
  · split at h
    · cases h
    · split at h
      · cases h
      · split at h
        · cases h
        · obtain ⟨list, _, h⟩ := bind_eq_ok_iff.mp h
          obtain ⟨fragments, _, h⟩ := bind_eq_ok_iff.mp h
          obtain ⟨params, _, h⟩ := bind_eq_ok_iff.mp h
          obtain ⟨returns, hr, h⟩ := bind_eq_ok_iff.mp h
          cases h
          exact read_of_returnSpec hr

namespace Schema

theorem exists_statements {functions : Text} {shared : Option Text} {s : Schema}
    (h : parse functions shared = .ok s) :
    ∃ ss fs sharedDeclarations declarations, (shared.map segment).getD (.ok []) = .ok ss ∧
      segment functions = .ok fs ∧ ss.mapM Declaration.ofStatement = .ok sharedDeclarations ∧
      fs.mapM Declaration.ofStatement = .ok declarations ∧
      Catalog.declareAll {} (sharedDeclarations ++ declarations) = (s.catalog, s.diagnostics) ∧
      (declarations.filterMap Declaration.function?).mapM (Signature.parse · s.catalog) =
        .ok s.functions := by
  obtain ⟨ss, hs, h⟩ := bind_eq_ok_iff.mp h
  obtain ⟨fs, hf, h⟩ := bind_eq_ok_iff.mp h
  obtain ⟨sharedDeclarations, hsd, h⟩ := bind_eq_ok_iff.mp h
  obtain ⟨declarations, hd, h⟩ := bind_eq_ok_iff.mp h
  obtain ⟨signatures, hm, h⟩ := bind_eq_ok_iff.mp h
  cases h
  exact ⟨ss, fs, sharedDeclarations, declarations, hs, hf, hsd, hd, rfl, hm⟩

theorem exists_declarations {functions : Text} {shared : Option Text} {s : Schema}
    (h : parse functions shared = .ok s) :
    ∃ (declarations : List Declaration) (statements : List Statement),
      Catalog.declareAll {} declarations = (s.catalog, s.diagnostics) ∧
        statements.map (Signature.parse · s.catalog) = s.functions.map .ok := by
  obtain ⟨_, _, _, _, _, _, _, _, hd, hm⟩ := exists_statements h
  exact ⟨_, _, hd, map_of_mapM hm⟩

theorem consistent_of_parse {functions : Text} {shared : Option Text} {s : Schema}
    (h : parse functions shared = .ok s) : s.catalog.Consistent := by
  obtain ⟨declarations, _, hd, _⟩ := exists_declarations h
  have hc := Catalog.consistent_empty.declareAll declarations
  rwa [hd] at hc

theorem ofReading_of_parse {functions : Text} {shared : Option Text} {s : Schema}
    (h : parse functions shared = .ok s) : ∀ d ∈ s.diagnostics, d.OfReading := by
  obtain ⟨declarations, _, hd, _⟩ := exists_declarations h
  have hr := Catalog.ofReading_declareAll {} declarations
  rwa [hd] at hr

theorem read_of_mem {functions : Text} {shared : Option Text} {s : Schema}
    (h : parse functions shared = .ok s) {f : Signature} (hf : f ∈ s.functions) :
    ReturnSpec.Read s.catalog f.params f.returns := by
  obtain ⟨_, statements, _, hs⟩ := exists_declarations h
  have hm : Except.ok f ∈ statements.map (Signature.parse · s.catalog) := by
    rw [hs]
    exact List.mem_map_of_mem hf
  obtain ⟨st, _, hp⟩ := List.mem_map.mp hm
  exact Signature.read_of_parse hp

end Schema

end Bindery

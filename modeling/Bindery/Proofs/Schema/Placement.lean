import Bindery.Proofs.Schema.Joining
import Bindery.Proofs.Schema.Parsed

namespace Bindery

namespace Statement

/-- What a statement says, apart from where it stands. -/
def content (s : Statement) : Text × Option Text :=
  (s.text, s.doc)

/-- Two lists of statements with the same functions in the same order and the same other statements
in the same order, wherever the statements stand. -/
structure Rearranged (ss ts : List Statement) : Prop where
  functions : (ss.filter createsFunction).map content = (ts.filter createsFunction).map content
  others : (ss.filter (!·.createsFunction)).map content =
    (ts.filter (!·.createsFunction)).map content

theorem Rearranged.symm {ss ts : List Statement} (h : Rearranged ss ts) : Rearranged ts ss :=
  ⟨h.functions.symm, h.others.symm⟩

theorem alike_of_content {ss ts : List Statement} (h : ss.map content = ts.map content) :
    List.Forall₂ (Alike .anywhere) ss ts := by
  rw [← List.forall₂_eq_eq_eq, List.forall₂_map_left_iff, List.forall₂_map_right_iff] at h
  apply h.imp
  intro s t hst
  obtain ⟨ht, hd⟩ := Prod.mk.inj hst
  exact ⟨ht, hd, trivial⟩

end Statement

namespace Declaration

theorem ofStatement_of_createsFunction {s : Statement} (h : s.createsFunction = true) :
    ofStatement s = .ok (.function s) := by
  unfold Statement.createsFunction at h
  unfold ofStatement
  cases ht : significantTokens s.text s.position with
  | error e =>
    rw [ht] at h
    cases h
  | ok tokens =>
    rw [ht] at h
    dsimp only [bind, Except.bind]
    rcases hs : StatementKind.split tokens with ⟨kind, rest⟩
    simp only [hs, beq_iff_eq] at h
    rw [h]
    rfl

/-- The declarations of a list, told apart: the functions are the statements that create them. -/
theorem apart_of_mapM {ss : List Statement} {ds : List Declaration}
    (h : ss.mapM ofStatement = .ok ds) :
    (ss.filter (!·.createsFunction)).mapM ofStatement = .ok (ds.filter (·.function?.isNone)) ∧
      ds.filterMap function? = ss.filter Statement.createsFunction := by
  induction ss generalizing ds with
  | nil =>
    cases h
    exact ⟨rfl, rfl⟩
  | cons s ss ih =>
    rw [List.mapM_cons] at h
    obtain ⟨d, hd, h⟩ := bind_eq_ok_iff.mp h
    obtain ⟨rest, hr, h⟩ := bind_eq_ok_iff.mp h
    cases h
    obtain ⟨ho, hf⟩ := ih hr
    cases hs : s.createsFunction with
    | false =>
      have hn := noFunction_ofStatement hs d hd
      have ho : (s :: ss.filter (!·.createsFunction)).mapM ofStatement =
          .ok (d :: rest.filter (·.function?.isNone)) := by
        rw [List.mapM_cons, hd, ho]
        rfl
      simp [hs, hn, hf, ho]
    | true =>
      rw [ofStatement_of_createsFunction hs] at hd
      cases hd
      simp [hs, ho, hf, function?]

theorem ofStatement_others {d : Displacement} {s t : Statement} (hs : s.Alike d t)
    (hf : s.createsFunction = false) : Agree d Eq (ofStatement s) (ofStatement t) := by
  have hn := noFunction_ofStatement hf
  have ha := ofStatement_alike hs
  generalize ofStatement s = x at hn ha
  generalize ofStatement t = y at ha
  cases ha with
  | error he => exact .error he
  | ok hd => cases hd with
    | function _ => cases hn _ rfl
    | same _ => exact .ok rfl

theorem exists_mapM_apart_iff {ss : List Statement} :
    (∃ ds, ss.mapM ofStatement = .ok ds) ↔
      ∃ os, (ss.filter (!·.createsFunction)).mapM ofStatement = .ok os := by
  rw [exists_mapM_iff, exists_mapM_iff]
  constructor
  · intro h s hs
    exact h s (List.mem_of_mem_filter hs)
  · intro h s hs
    cases hc : s.createsFunction with
    | false => exact h s (List.mem_filter.mpr ⟨hs, by rw [hc]; rfl⟩)
    | true => exact ⟨_, ofStatement_of_createsFunction hc⟩

end Declaration

namespace Catalog

theorem declare_of_function {d : Declaration} {s : Statement} (h : d.function? = some s)
    (c : Catalog) : c.declare d = (c, []) := by
  cases d with
  | function _ => rfl
  | _ => cases h

theorem declareAll_others (c : Catalog) (ds : List Declaration) :
    c.declareAll ds = c.declareAll (ds.filter (·.function?.isNone)) := by
  induction ds generalizing c with
  | nil => rfl
  | cons d ds ih =>
    cases hd : d.function? with
    | none =>
      rw [List.filter_cons_of_pos (by simp [hd])]
      simp only [declareAll, ih]
    | some s =>
      rw [List.filter_cons_of_neg (by simp [hd])]
      simp only [declareAll, declare_of_function hd, List.nil_append, ih]

end Catalog

namespace Schema

/-- The schema of declarations without functions and of statements that create functions. -/
def ofApart (others : List Declaration) (functions : List Statement) :
    Except ParseError Schema := do
  let (catalog, diagnostics) := Catalog.declareAll {} others
  let signatures ← functions.mapM (Signature.parse · catalog)
  return ⟨catalog, signatures, diagnostics⟩

theorem ofDeclarations_apart (shared ds : List Declaration) :
    ofDeclarations shared ds = ofApart (shared.filter (·.function?.isNone) ++
      ds.filter (·.function?.isNone)) (ds.filterMap Declaration.function?) := by
  rw [ofDeclarations, ofApart, Catalog.declareAll_others, List.filter_append]

/-- What a source text says apart from how its functions stand among the rest: the declarations
without functions, and the statements that create functions. -/
def readApart (source : Text) : Except ParseError (List Declaration × List Statement) := do
  let statements ← segment source
  let others ← (statements.filter (!·.createsFunction)).mapM Declaration.ofStatement
  return (others, statements.filter Statement.createsFunction)

theorem readApart_eq_ok_iff {source : Text} {apart : List Declaration × List Statement} :
    readApart source = .ok apart ↔ ∃ ss ds, segment source = .ok ss ∧
      ss.mapM Declaration.ofStatement = .ok ds ∧
        apart = (ds.filter (·.function?.isNone), ds.filterMap Declaration.function?) := by
  constructor
  · intro h
    obtain ⟨ss, hs, h⟩ := bind_eq_ok_iff.mp h
    obtain ⟨others, ho, h⟩ := bind_eq_ok_iff.mp h
    obtain ⟨ds, hd⟩ := Declaration.exists_mapM_apart_iff.mpr ⟨others, ho⟩
    obtain ⟨ho', hf⟩ := Declaration.apart_of_mapM hd
    rw [ho] at ho'
    cases ho'
    cases h
    exact ⟨ss, ds, hs, hd, by rw [hf]⟩
  · rintro ⟨ss, ds, hs, hd, rfl⟩
    obtain ⟨ho, hf⟩ := Declaration.apart_of_mapM hd
    rw [readApart, hs, hf]
    simp only [bind, Except.bind, ho]
    rfl

theorem readApart_shared_iff {shared : Option Text} {apart : List Declaration × List Statement} :
    (shared.map readApart).getD (.ok ([], [])) = .ok apart ↔
      ∃ ss ds, (shared.map segment).getD (.ok []) = .ok ss ∧
        ss.mapM Declaration.ofStatement = .ok ds ∧
          apart = (ds.filter (·.function?.isNone), ds.filterMap Declaration.function?) := by
  cases shared with
  | some s => exact readApart_eq_ok_iff
  | none =>
    constructor
    · intro h
      cases h
      exact ⟨[], [], rfl, rfl, rfl⟩
    · rintro ⟨ss, ds, hs, hd, rfl⟩
      cases hs
      cases hd
      rfl

/-- A schema is read from what its texts say apart from the placement of functions. -/
theorem parse_eq_ok_iff_apart {f : Text} {shared : Option Text} {a : Schema} :
    parse f shared = .ok a ↔ ∃ s t, (shared.map readApart).getD (.ok ([], [])) = .ok s ∧
      readApart f = .ok t ∧ ofApart (s.1 ++ t.1) t.2 = .ok a := by
  constructor
  · intro h
    obtain ⟨ss, hs, h⟩ := bind_eq_ok_iff.mp h
    obtain ⟨fs, hf, h⟩ := bind_eq_ok_iff.mp h
    obtain ⟨sd, hsd, h⟩ := bind_eq_ok_iff.mp h
    obtain ⟨ds, hd, h⟩ := bind_eq_ok_iff.mp h
    have h : ofDeclarations sd ds = .ok a := h
    rw [ofDeclarations_apart] at h
    exact ⟨_, _, readApart_shared_iff.mpr ⟨ss, sd, hs, hsd, rfl⟩,
      readApart_eq_ok_iff.mpr ⟨fs, ds, hf, hd, rfl⟩, h⟩
  · rintro ⟨s, t, hs, ht, h⟩
    obtain ⟨ss, sd, hss, hsd, rfl⟩ := readApart_shared_iff.mp hs
    obtain ⟨fs, ds, hf, hd, rfl⟩ := readApart_eq_ok_iff.mp ht
    rw [← ofDeclarations_apart] at h
    rw [parse, hss, hf]
    simp only [bind, Except.bind, hsd, hd]
    exact h

/-- Two texts with the same statements, whose functions may stand elsewhere among the rest. -/
def Rearranged (s t : Text) : Prop :=
  ∃ ss ts, segment s = .ok ss ∧ segment t = .ok ts ∧ Statement.Rearranged ss ts

theorem Rearranged.symm {s t : Text} (h : Rearranged s t) : Rearranged t s := by
  obtain ⟨ss, ts, hs, ht, h⟩ := h
  exact ⟨ts, ss, ht, hs, h.symm⟩

theorem readApart_rearranged {s t : Text} (h : Rearranged s t) :
    Agree .anywhere (fun a b => a.1 = b.1 ∧ List.Forall₂ (Statement.Alike .anywhere) a.2 b.2)
      (readApart s) (readApart t) := by
  obtain ⟨ss, ts, hs, ht, hf, ho⟩ := h
  rw [readApart, readApart, hs, ht]
  have ho : List.Forall₂ (fun a b => a.createsFunction = false ∧ a.Alike .anywhere b)
      (ss.filter (!·.createsFunction)) (ts.filter (!·.createsFunction)) := by
    rw [List.forall₂_and_left]
    refine ⟨?_, Statement.alike_of_content ho⟩
    intro a ha
    simpa using (List.mem_filter.mp ha).2
  apply (Agree.mapM ho fun _ _ h => Declaration.ofStatement_others h.2 h.1).bind
  intro others others' he
  rw [List.forall₂_eq_eq_eq] at he
  exact .ok ⟨he, Statement.alike_of_content hf⟩

theorem ofApart_alike (others : List Declaration) {fs gs : List Statement}
    (h : List.Forall₂ (Statement.Alike .anywhere) fs gs) :
    Agree .anywhere (fun a b => a.catalog = b.catalog ∧ a.diagnostics = b.diagnostics ∧
        List.Forall₂ (Signature.Alike .anywhere) a.functions b.functions)
      (ofApart others fs) (ofApart others gs) := by
  apply (Agree.mapM h fun _ _ h => Signature.parse_alike h _).bind
  intro signatures signatures' hs
  exact .ok ⟨rfl, rfl, hs⟩

theorem readApart_shared_rearranged {shared shared' : Option Text}
    (h : Option.Rel Rearranged shared shared') :
    Agree .anywhere (fun a b => a.1 = b.1 ∧ List.Forall₂ (Statement.Alike .anywhere) a.2 b.2)
      ((shared.map readApart).getD (.ok ([], [])))
      ((shared'.map readApart).getD (.ok ([], []))) := by
  cases h with
  | some h => exact readApart_rearranged h
  | none => exact .ok ⟨rfl, .nil⟩

/-- Where functions stand among the rest neither lets a schema fail nor changes it. -/
theorem exists_parse_of_rearranged {f g : Text} {shared shared' : Option Text} {a : Schema}
    (hf : Rearranged f g) (hs : Option.Rel Rearranged shared shared')
    (h : parse f shared = .ok a) :
    ∃ b, parse g shared' = .ok b ∧ a.catalog = b.catalog ∧ a.diagnostics = b.diagnostics ∧
      List.Forall₂ (Signature.Alike .anywhere) a.functions b.functions := by
  obtain ⟨s, t, hs₁, ht₁, h⟩ := parse_eq_ok_iff_apart.mp h
  obtain ⟨s', hs', hes, -⟩ := (readApart_shared_rearranged hs).exists_ok hs₁
  obtain ⟨t', ht', het, hfs⟩ := (readApart_rearranged hf).exists_ok ht₁
  obtain ⟨b, hb, hab⟩ := (ofApart_alike (s.1 ++ t.1) hfs).exists_ok h
  rw [hes, het] at hb
  exact ⟨b, parse_eq_ok_iff_apart.mpr ⟨s', t', hs', ht', hb⟩, hab⟩

/--
Two sources whose statements are the same and differ in the placement of functions among the rest
are both read or both refused, and if they are read, the catalogs and the diagnostics are the same
and the functions are the same but for their places.
-/
theorem parse_iff_of_rearranged {f g : Text} {shared shared' : Option Text} (hf : Rearranged f g)
    (hs : Option.Rel Rearranged shared shared') :
    ((∃ a, parse f shared = .ok a) ↔ ∃ b, parse g shared' = .ok b) ∧
      ∀ a b, parse f shared = .ok a → parse g shared' = .ok b →
        a.catalog = b.catalog ∧ a.diagnostics = b.diagnostics ∧
          List.Forall₂ (Signature.Alike .anywhere) a.functions b.functions := by
  have hs' : Option.Rel Rearranged shared' shared := by
    cases hs with
    | some h => exact .some h.symm
    | none => exact .none
  refine ⟨⟨?_, ?_⟩, ?_⟩
  · rintro ⟨a, ha⟩
    obtain ⟨b, hb, -⟩ := exists_parse_of_rearranged hf hs ha
    exact ⟨b, hb⟩
  · rintro ⟨b, hb⟩
    obtain ⟨a, ha, -⟩ := exists_parse_of_rearranged hf.symm hs' hb
    exact ⟨a, ha⟩
  · intro a b ha hb
    obtain ⟨b', hb', h⟩ := exists_parse_of_rearranged hf hs ha
    rw [hb] at hb'
    cases hb'
    exact h

/-- Functions before the tables that they return, of which two share a name. -/
def catsLast : Text :=
  "-- Finds.\nCREATE FUNCTION find() RETURNS cat; CREATE TABLE a.cat (n int);\n" ++
    "CREATE FUNCTION drop_all() RETURNS int; CREATE TABLE b.cat (n text)"

def catsFirst : Text :=
  "CREATE TABLE a.cat (n int); CREATE TABLE b.cat (n text);\n-- Finds.\n" ++
    "CREATE FUNCTION find() RETURNS cat; CREATE FUNCTION drop_all() RETURNS int"

theorem rearranged_cats : Rearranged catsLast catsFirst := by
  have hlast : catsLast = _ ++ _ := congrArg₂ (· ++ ·) String.toList_ofList String.toList_ofList
  have hfirst : catsFirst = _ ++ _ := congrArg₂ (· ++ ·) String.toList_ofList String.toList_ofList
  refine ⟨[⟨"CREATE FUNCTION find() RETURNS cat", ⟨2, 1⟩, some "Finds.".toList⟩,
      ⟨"CREATE TABLE a.cat (n int)", ⟨2, 37⟩, none⟩,
      ⟨"CREATE FUNCTION drop_all() RETURNS int", ⟨3, 1⟩, none⟩,
      ⟨"CREATE TABLE b.cat (n text)", ⟨3, 41⟩, none⟩],
    [⟨"CREATE TABLE a.cat (n int)", ⟨1, 1⟩, none⟩,
      ⟨"CREATE TABLE b.cat (n text)", ⟨1, 29⟩, none⟩,
      ⟨"CREATE FUNCTION find() RETURNS cat", ⟨3, 1⟩, some "Finds.".toList⟩,
      ⟨"CREATE FUNCTION drop_all() RETURNS int", ⟨3, 37⟩, none⟩], ?_, ?_, ?_⟩
  · rw [hlast]
    decide +kernel
  · rw [hfirst]
    decide +kernel
  · exact ⟨by decide +kernel, by decide +kernel⟩

/-- What both texts declare, with the functions at the given places. -/
def cats (find dropAll : Position) : Schema where
  catalog := { tables := ⟨[⟨"a.cat", [⟨"n", "int", true, none⟩]⟩,
    ⟨"b.cat", [⟨"n", "text", true, none⟩]⟩], [("a.cat", 0), ("cat", 0), ("b.cat", 1)]⟩ }
  functions := [⟨"find", "find", some "Finds.".toList, [], ⟨.tableRow "cat", false⟩, find⟩,
    ⟨"drop_all", "drop_all", none, [], ⟨.scalar "int", false⟩, dropAll⟩]
  diagnostics := [.ambiguousName "b.cat" "cat"]

theorem parse_iff_of_rearranged_cats :
    parse catsLast none = .ok (cats ⟨2, 1⟩ ⟨3, 1⟩) ∧
      parse catsFirst none = .ok (cats ⟨3, 1⟩ ⟨3, 37⟩) ∧
        List.Forall₂ (Signature.Alike .anywhere) (cats ⟨2, 1⟩ ⟨3, 1⟩).functions
          (cats ⟨3, 1⟩ ⟨3, 37⟩).functions := by
  have hlast : catsLast = _ ++ _ := congrArg₂ (· ++ ·) String.toList_ofList String.toList_ofList
  have hfirst : catsFirst = _ ++ _ := congrArg₂ (· ++ ·) String.toList_ofList String.toList_ofList
  have hl : parse catsLast none = .ok (cats ⟨2, 1⟩ ⟨3, 1⟩) := by
    rw [hlast]
    decide +kernel
  have hf : parse catsFirst none = .ok (cats ⟨3, 1⟩ ⟨3, 37⟩) := by
    rw [hfirst]
    decide +kernel
  have h := (parse_iff_of_rearranged rearranged_cats .none).2 _ _ hl hf
  exact ⟨hl, hf, h.2.2⟩

end Schema

end Bindery

import Bindery.Proofs.Place.Declaration
import Bindery.Proofs.Statement.Joining

namespace Bindery

def Statement.createsFunction (s : Statement) : Bool :=
  match significantTokens s.text s.position with
  | .ok tokens => (StatementKind.split tokens).1 == .function
  | .error _ => false

namespace Declaration

def NoFunction (outcome : Except ParseError Declaration) : Prop :=
  ∀ d, outcome = .ok d → d.function? = none

theorem NoFunction.bind {α : Type} {x : Except ParseError α}
    {k : α → Except ParseError Declaration} (h : ∀ a, NoFunction (k a)) : NoFunction (x >>= k) := by
  cases x with
  | ok a => exact h a
  | error e =>
    intro d hd
    cases hd

theorem NoFunction.ite {p : Prop} [Decidable p] {x y : Except ParseError Declaration}
    (hx : NoFunction x) (hy : NoFunction y) : NoFunction (if p then x else y) := by
  split
  · exact hx
  · exact hy

theorem NoFunction.ok {d : Declaration} (h : d.function? = none) : NoFunction (.ok d) := by
  intro e he
  cases he
  exact h

theorem NoFunction.error (e : ParseError) : NoFunction (.error e) := by
  intro d hd
  cases hd

theorem noFunction_ofTable (s : Statement) (tokens : List Token) :
    NoFunction (ofTable s tokens) := by
  apply NoFunction.bind
  rintro ⟨name, rest⟩
  cases rest with
  | nil => exact .ok rfl
  | cons opening rest =>
    apply NoFunction.ite
    · exact .ok rfl
    · apply NoFunction.bind
      intro list
      apply NoFunction.bind
      intro columns
      exact .ok rfl

theorem noFunction_ofEnum (s : Statement) (name : Text) (tokens : List Token) :
    NoFunction (ofEnum s name tokens) := by
  cases tokens with
  | nil => exact .ok rfl
  | cons opening rest =>
    apply NoFunction.ite
    · exact .ok rfl
    · apply NoFunction.bind
      intro list
      exact .ok rfl

theorem noFunction_ofComposite (s : Statement) (name : Text) (tokens : List Token) :
    NoFunction (ofComposite s name tokens) := by
  cases tokens with
  | nil => exact .ok rfl
  | cons opening rest =>
    apply NoFunction.ite
    · exact .ok rfl
    · apply NoFunction.bind
      intro list
      apply NoFunction.bind
      intro columns
      exact .ok rfl

theorem noFunction_ofType (s : Statement) (tokens : List Token) :
    NoFunction (ofType s tokens) := by
  apply NoFunction.bind
  rintro ⟨name, rest⟩
  match rest with
  | [] => exact .ok rfl
  | [_] => exact .ite (.ok rfl) (.ok rfl)
  | _ :: kind :: more =>
    apply NoFunction.ite
    · exact .ok rfl
    · apply NoFunction.ite
      · exact noFunction_ofEnum s name more
      · exact noFunction_ofComposite s name (kind :: more)

theorem noFunction_ofDomain (s : Statement) (tokens : List Token) :
    NoFunction (ofDomain s tokens) := by
  apply NoFunction.bind
  rintro ⟨name, rest⟩
  apply NoFunction.ite
  · exact .error _
  · exact .ok rfl

theorem noFunction_ofStatement {s : Statement} (h : s.createsFunction = false) :
    NoFunction (ofStatement s) := by
  unfold Statement.createsFunction at h
  unfold ofStatement
  cases ht : significantTokens s.text s.position with
  | error e => exact .error e
  | ok tokens =>
    rw [ht] at h
    change ((StatementKind.split tokens).1 == .function) = false at h
    dsimp only [bind, Except.bind]
    rcases hs : StatementKind.split tokens with ⟨kind, rest⟩
    rw [hs] at h
    cases kind with
    | table => exact noFunction_ofTable s rest
    | type => exact noFunction_ofType s rest
    | domain => exact noFunction_ofDomain s rest
    | function => cases h
    | other => exact .ok rfl

theorem noFunction_mapM {ss : List Statement} {ds : List Declaration}
    (hf : ∀ s ∈ ss, s.createsFunction = false) (h : ss.mapM ofStatement = .ok ds) :
    ∀ d ∈ ds, d.function? = none := by
  induction ss generalizing ds with
  | nil =>
    cases h
    simp
  | cons s ss ih =>
    rw [List.mapM_cons] at h
    cases hs : ofStatement s with
    | error e =>
      rw [hs] at h
      cases h
    | ok first =>
      cases hm : ss.mapM ofStatement with
      | error e =>
        rw [hs, hm] at h
        cases h
      | ok more =>
        rw [hs, hm] at h
        cases h
        intro d hd
        rcases List.mem_cons.mp hd with rfl | hd
        · exact noFunction_ofStatement (hf s (by simp)) d hs
        · exact ih (fun t ht => hf t (by simp [ht])) hm d hd

end Declaration

theorem Catalog.declareAll_down (n : Nat) (c : Catalog) (shared ds : List Declaration) :
    c.declareAll (shared ++ ds.map (Declaration.down n)) = c.declareAll (shared ++ ds) := by
  induction shared generalizing c with
  | nil =>
    induction ds generalizing c with
    | nil => rfl
    | cons d ds ih =>
      simp only [List.nil_append, List.map_cons, declareAll, declare_down] at ih ⊢
      rw [ih]
  | cons d shared ih =>
    simp only [List.cons_append, declareAll]
    rw [ih]

namespace Schema

/-- The schema of the declarations, of which only the later ones may give functions. -/
def ofDeclarations (shared declarations : List Declaration) : Except ParseError Schema := do
  let (catalog, diagnostics) := Catalog.declareAll {} (shared ++ declarations)
  let signatures ← (declarations.filterMap Declaration.function?).mapM (Signature.parse · catalog)
  return ⟨catalog, signatures, diagnostics⟩

/-- The schema of functions that stand `n` lines further down. -/
def down (n : Nat) (a : Schema) : Schema :=
  { a with functions := a.functions.map (Signature.down n) }

theorem ofDeclarations_join (n : Nat) {shared : List Declaration}
    (h : ∀ d ∈ shared, d.function? = none) (ds : List Declaration) :
    ofDeclarations [] (shared ++ ds.map (Declaration.down n)) =
      lowered n (down n) (ofDeclarations shared ds) := by
  have hf : (shared ++ ds.map (Declaration.down n)).filterMap Declaration.function? =
      (ds.filterMap Declaration.function?).map (Statement.down n) := by
    rw [List.filterMap_append, List.filterMap_eq_nil_iff.mpr h, List.nil_append,
      List.filterMap_map, List.map_filterMap]
    exact congrArg (ds.filterMap ·) (funext (Declaration.function?_down n))
  rw [ofDeclarations, ofDeclarations, List.nil_append, Catalog.declareAll_down, hf]
  simp only
  rw [mapM_lowered fun s => Signature.parse_down n s _]
  apply lowered_bind
  intro signatures
  rfl

theorem parse_some {s : Text} {ss : List Statement} (h : segment s = .ok ss) (f : Text) :
    parse f (some s) = (do
      let fs ← segment f
      let shared ← ss.mapM Declaration.ofStatement
      let declarations ← fs.mapM Declaration.ofStatement
      ofDeclarations shared declarations) := by
  rw [parse]
  change segment s >>= _ = _
  rw [h]
  rfl

theorem parse_none (t : Text) :
    parse t none = (do
      let statements ← segment t
      let declarations ← statements.mapM Declaration.ofStatement
      ofDeclarations [] declarations) := rfl

/-- The joined text gives the schema of both texts, or both ways fail in the shared text. -/
theorem parse_join {s : Text} {ss : List Statement} (h : segment s = .ok ss)
    (hf : ∀ st ∈ ss, st.createsFunction = false) (f : Text) :
    (∃ e, parse f (some s) = .error e ∧ parse (s ++ "\n;\n" ++ f) none = .error e) ∨
      parse (s ++ "\n;\n" ++ f) none =
        lowered (Text.newlines (s ++ "\n;\n")) (down (Text.newlines (s ++ "\n;\n")))
          (parse f (some s)) := by
  rw [parse_some h, parse_none, segment_join h]
  generalize Text.newlines (s ++ "\n;\n") = n
  cases segment f with
  | error e => exact .inr rfl
  | ok fs =>
    change (∃ e, (ss.mapM Declaration.ofStatement >>= _) = .error e ∧
      ((ss ++ fs.map (Statement.down n)).mapM Declaration.ofStatement >>= _) = .error e) ∨
      ((ss ++ fs.map (Statement.down n)).mapM Declaration.ofStatement >>= _) =
        lowered n (down n) (ss.mapM Declaration.ofStatement >>= _)
    rw [List.mapM_append, mapM_lowered (Declaration.ofStatement_down n)]
    cases hs : ss.mapM Declaration.ofStatement with
    | error e =>
      exact .inl ⟨e, rfl, rfl⟩
    | ok shared =>
      have hd := Declaration.noFunction_mapM hf hs
      right
      cases fs.mapM Declaration.ofStatement with
      | error e => rfl
      | ok ds => exact ofDeclarations_join n hd ds

/--
A shared text without functions and a text with functions are read as the shared text, a line with
a semicolon and the text with functions: one way succeeds where the other does, and then the
functions stand further down by the lines before them and all else is the same.
-/
theorem parse_shared_as_joined {s : Text} {ss : List Statement} (h : segment s = .ok ss)
    (hf : ∀ st ∈ ss, st.createsFunction = false) (f : Text) :
    ((∃ a, parse f (some s) = .ok a) ↔ ∃ b, parse (s ++ "\n;\n" ++ f) none = .ok b) ∧
      ∀ a, parse f (some s) = .ok a → parse (s ++ "\n;\n" ++ f) none =
        .ok { a with functions :=
          a.functions.map (Signature.down (Text.newlines (s ++ "\n;\n"))) } := by
  rcases parse_join h hf f with ⟨e, hs, hj⟩ | hj
  · rw [hs, hj]
    simp
  · rw [hj]
    cases parse f (some s) with
    | error e => simp [lowered]
    | ok a =>
      refine ⟨⟨fun _ => ⟨_, rfl⟩, fun _ => ⟨a, rfl⟩⟩, ?_⟩
      intro b hb
      cases hb
      rfl

/-- A last statement without a semicolon, before a comment that only the end of the text closes. -/
def moodShared : Text :=
  "CREATE TYPE mood AS ENUM ('calm') -- no semicolon"

def moodFunctions : Text :=
  "-- Asks.\nCREATE FUNCTION ask() RETURNS mood"

/-- What the two texts declare, with the function in the given line. -/
def moodAsked (line : Nat) : Schema where
  catalog := { enums := ⟨[⟨"mood", ["calm".toList]⟩], [("mood", 0)]⟩ }
  functions := [⟨"ask", "ask", some "Asks.".toList, [], ⟨.enum "mood", false⟩, ⟨line, 1⟩⟩]

theorem parse_shared_as_joined_behind_comment :
    ∃ ss, segment moodShared = .ok ss ∧ (∀ st ∈ ss, st.createsFunction = false) ∧
      parse moodFunctions (some moodShared) = .ok (moodAsked 2) ∧
      parse (moodShared ++ "\n;\n" ++ moodFunctions) none = .ok (moodAsked 4) := by
  have hs : segment moodShared = .ok [⟨"CREATE TYPE mood AS ENUM ('calm')", .start, none⟩] := by
    decide +kernel
  have hf : ∀ st ∈ [(⟨"CREATE TYPE mood AS ENUM ('calm')", .start, none⟩ : Statement)],
      st.createsFunction = false := by
    decide +kernel
  have ha : parse moodFunctions (some moodShared) = .ok (moodAsked 2) := by
    decide +kernel
  have hn : Text.newlines (moodShared ++ "\n;\n") = 2 := by decide +kernel
  have hj := (parse_shared_as_joined hs hf moodFunctions).2 _ ha
  rw [hn] at hj
  exact ⟨_, hs, hf, ha, hj⟩

end Schema

end Bindery

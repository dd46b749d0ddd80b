import Bindery.Proofs.Binding.Notices

namespace Bindery

/-- The type and the function that a notice about an undeclared type names. -/
def Diagnostic.missing? : Diagnostic → Option (Text × Text)
  | .missingSchema typeName function _ => some (typeName, function)
  | _ => none

/-- What a strict reading gives where a relaxed one gives `a` with some notices. -/
def strictly {α : Type} (a : α) (notices : List Diagnostic) : Except SchemaError α :=
  match notices.findSome? Diagnostic.missing? with
  | some (typeName, function) => .error (.missingSchema typeName function)
  | none => .ok a

theorem strictly_eq_ok {α : Type} {a b : α} {notices : List Diagnostic}
    (h : strictly a notices = .ok b) : b = a := by
  unfold strictly at h
  split at h
  · cases h
  · cases h
    rfl

theorem strictly_eq_error_iff {α : Type} {a : α} {notices : List Diagnostic} {e : SchemaError} :
    strictly a notices = .error e ↔ ∃ typeName function, e = .missingSchema typeName function ∧
      notices.findSome? Diagnostic.missing? = some (typeName, function) := by
  unfold strictly
  split
  · rename_i typeName function hm
    constructor
    · intro h
      cases h
      exact ⟨typeName, function, rfl, hm⟩
    · rintro ⟨t, f, rfl, h⟩
      rw [hm] at h
      cases h
      rfl
  · rename_i hm
    constructor
    · intro h
      cases h
    · rintro ⟨t, f, _, h⟩
      rw [hm] at h
      cases h

namespace Plan

theorem ofSignature_strictly (c : Catalog) (f : Signature) :
    ∃ p, ofSignature c false f = .ok p ∧ ofSignature c true f = strictly p p.2 := by
  cases hk : f.returns.kind with
  | tableRows raw =>
    cases hd : denotesRows c raw with
    | true =>
      refine ⟨(.record raw, []), ?_, ?_⟩
      · simp only [ofSignature, hk, hd, if_true]
      · simp only [ofSignature, hk, hd, if_true]
        rfl
    | false =>
      have hs : ofSignature c true f = .error (.missingSchema raw f.name) := by
        simp [ofSignature, hk, hd]
      rw [hs]
      cases ho : outputColumns f.params with
      | nil =>
        refine ⟨(.rows, [.missingSchema raw f.name .untypedRows]), ?_, rfl⟩
        simp [ofSignature, hk, hd, ho]
      | cons column columns =>
        refine ⟨(.explicit (column :: columns),
          [.missingSchema raw f.name .outputParameters]), ?_, rfl⟩
        simp [ofSignature, hk, hd, ho]
  | _ =>
    simp only [ofSignature, hk]
    exact ⟨_, rfl, rfl⟩

/-- Plans that are all made fail strictly at the first function with a notice. -/
theorem mapM_ofSignature_strictly (c : Catalog) (fs : List Signature) :
    ∃ plans, fs.mapM (ofSignature c false) = .ok plans ∧
      fs.mapM (ofSignature c true) = strictly plans (plans.flatMap Prod.snd) := by
  induction fs with
  | nil => exact ⟨[], rfl, rfl⟩
  | cons f fs ih =>
    obtain ⟨p, hp, hs⟩ := ofSignature_strictly c f
    obtain ⟨plans, hps, hss⟩ := ih
    refine ⟨p :: plans, ?_, ?_⟩
    · rw [List.mapM_cons, hp, hps]
      rfl
    · rw [List.mapM_cons, hs, hss, strictly, strictly, strictly, List.flatMap_cons,
        List.findSome?_append]
      cases p.2.findSome? Diagnostic.missing? with
      | some named => rfl
      | none => cases (plans.flatMap Prod.snd).findSome? Diagnostic.missing? <;> rfl

end Plan

/-- No notice is about an undeclared type. -/
def NoneMissing (notices : List Diagnostic) : Prop :=
  ∀ d ∈ notices, d.missing? = none

theorem NoneMissing.findSome? {notices : List Diagnostic} (h : NoneMissing notices) :
    notices.findSome? Diagnostic.missing? = none :=
  List.findSome?_eq_none_iff.mpr h

theorem OnlyNaming.noneMissing {notices : List Diagnostic} (h : OnlyNaming notices) :
    NoneMissing notices := by
  intro d hd
  cases h d hd with
  | collision => rfl
  | unknown => rfl

namespace Binding

/-- Among all notices of a binding only those of the plans are about undeclared types. -/
theorem findSome?_assemble {s : Schema} (hs : NoneMissing s.diagnostics)
    (plans : List (Plan × List Diagnostic)) :
    (assemble s plans).diagnostics.findSome? Diagnostic.missing? =
      (plans.flatMap Prod.snd).findSome? Diagnostic.missing? := by
  obtain ⟨functions, others, hf, ho, he⟩ := diagnostics_assemble s plans
  rw [he]
  simp only [List.findSome?_append, hs.findSome?, hf.noneMissing.findSome?,
    ho.noneMissing.findSome?, Option.none_or, Option.or_none]

theorem noneMissing_of_parse {functions : Text} {shared : Option Text} {s : Schema}
    (h : Schema.parse functions shared = .ok s) : NoneMissing s.diagnostics := by
  intro d hd
  cases Schema.ofReading_of_parse h d hd with
  | skipped => rfl
  | ambiguous => rfl

/-- The strict outcome can be told from the relaxed binding and its notices. -/
theorem build_strictly {s : Schema} (hs : NoneMissing s.diagnostics) :
    ∃ b, build s false = .ok b ∧ build s true = strictly b b.diagnostics := by
  obtain ⟨plans, hr, ht⟩ := Plan.mapM_ofSignature_strictly s.catalog s.functions
  refine ⟨assemble s plans, ?_, ?_⟩
  · rw [build, hr]
    rfl
  · rw [build, ht, strictly, strictly, findSome?_assemble hs]
    cases (plans.flatMap Prod.snd).findSome? Diagnostic.missing? <;> rfl

/--
A relaxed reading extends a strict one. It always succeeds; where the strict one succeeds both give
the same binding, and the strict one fails exactly with the type and the function that the first
notice of the relaxed one about an undeclared type names.
-/
theorem build_relaxed_extends_strict {functions : Text} {shared : Option Text} {s : Schema}
    (h : Schema.parse functions shared = .ok s) :
    ∃ b, build s false = .ok b ∧ (∀ b', build s true = .ok b' → b' = b) ∧
      (∀ typeName function, build s true = .error (.missingSchema typeName function) ↔
        b.diagnostics.findSome? Diagnostic.missing? = some (typeName, function)) ∧
      ∀ e, build s true = .error e →
        ∃ typeName function, e = .missingSchema typeName function := by
  obtain ⟨b, hr, hs⟩ := build_strictly (noneMissing_of_parse h)
  refine ⟨b, hr, ?_, ?_, ?_⟩
  · intro b' hb
    exact strictly_eq_ok (hs ▸ hb)
  · intro typeName function
    rw [hs, strictly_eq_error_iff]
    constructor
    · rintro ⟨t, f, he, hm⟩
      cases he
      exact hm
    · intro hm
      exact ⟨typeName, function, rfl, hm⟩
  · intro e he
    rw [hs, strictly_eq_error_iff] at he
    obtain ⟨t, f, he, _⟩ := he
    exact ⟨t, f, he⟩

/-- Two functions return rows of undeclared types, and only the first describes its rows. -/
def undeclaredSource : Text :=
  "CREATE FUNCTION f() RETURNS void; CREATE FUNCTION g(OUT a int) RETURNS SETOF w;
   CREATE FUNCTION h() RETURNS SETOF v"

theorem build_relaxed_extends_strict_of_undeclared : ∃ s b,
    Schema.parse undeclaredSource none = .ok s ∧ build s false = .ok b ∧
      b.diagnostics = [.missingSchema ['w'] ['g'] .outputParameters,
        .missingSchema ['v'] ['h'] .untypedRows] ∧
      build s true = .error (.missingSchema ['w'] ['g']) := by
  have h : ((Schema.parse undeclaredSource none).toOption.bind fun s =>
      (build s false).toOption.bind fun b => some b.diagnostics) =
        some [.missingSchema ['w'] ['g'] .outputParameters,
          .missingSchema ['v'] ['h'] .untypedRows] := by
    set_option maxRecDepth 1000 in
    rw [show undeclaredSource = _ from String.toList_ofList]
    decide +kernel
  obtain ⟨s, hs, h⟩ := Option.bind_eq_some_iff.mp h
  obtain ⟨b, hb, h⟩ := Option.bind_eq_some_iff.mp h
  have hs := eq_ok_of_toOption hs
  have hb := eq_ok_of_toOption hb
  have hd := Option.some.inj h
  obtain ⟨b', hb', _, he, _⟩ := build_relaxed_extends_strict hs
  rw [hb] at hb'
  cases hb'
  refine ⟨s, b, hs, hb, hd, (he ['w'] ['g']).mpr ?_⟩
  rw [hd]
  rfl

end Binding

end Bindery

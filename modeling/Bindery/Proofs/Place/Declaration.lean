import Bindery.Schema
import Bindery.Proofs.Place.Run
import Bindery.Proofs.Place.Segment

namespace Bindery

variable {d : Displacement}

/-- Two statements that differ in their places only. -/
structure Statement.Alike (d : Displacement) (s t : Statement) : Prop where
  text : s.text = t.text
  doc : s.doc = t.doc
  position : d.Rel s.position t.position

/-- Two signatures that differ in their places only. -/
structure Signature.Alike (d : Displacement) (s t : Signature) : Prop where
  callName : s.callName = t.callName
  name : s.name = t.name
  doc : s.doc = t.doc
  params : s.params = t.params
  returns : s.returns = t.returns
  position : d.Rel s.position t.position

/-- Two declarations that differ in the places of functions only. -/
inductive Declaration.Alike (d : Displacement) : Declaration → Declaration → Prop
  | function {s t : Statement} : s.Alike d t → Alike d (.function s) (.function t)
  | same {x : Declaration} : x.function? = none → Alike d x x

section Parameters

variable {ts us : List Token}

theorem ParamMode.split_alike (h : List.Forall₂ (Token.Alike d) ts us) :
    (split ts).1 = (split us).1 ∧ List.Forall₂ (Token.Alike d) (split ts).2 (split us).2 := by
  obtain _ | ⟨ha, _ | ⟨hb, hr⟩⟩ := h
  · exact ⟨rfl, .nil⟩
  · exact ⟨rfl, .cons ha .nil⟩
  · rename_i first first' _ _ _ _
    have hf : ofToken? first = ofToken? first' := ha.congr fun _ _ => rfl
    simp only [split, hf]
    cases ofToken? first' with
    | none => exact ⟨rfl, .cons ha (.cons hb hr)⟩
    | some mode => exact ⟨rfl, .cons hb hr⟩

theorem Parameter.isUnnamed_alike (h : List.Forall₂ (Token.Alike d) ts us) (whole : Text) :
    isUnnamed ts whole = isUnnamed us whole := by
  obtain _ | ⟨ha, _ | ⟨hb, hr⟩⟩ := h
  · rfl
  · rfl
  · simp only [isUnnamed, ha.isIdentifier, hb.isSymbol]

theorem Parameter.parse_alike {f g : Fragment} (h : f.Alike d g) :
    Agree d Eq (parse f) (parse g) := by
  rw [parse, parse, ← h.text]
  apply (significantTokens_alike h.position f.text).bind
  intro ts us hts
  obtain ⟨hm, hr⟩ := ParamMode.split_alike hts
  generalize ParamMode.split ts = a at hm hr
  generalize ParamMode.split us = b at hm hr
  obtain ⟨mode, rest⟩ := a
  obtain ⟨mode', rest'⟩ := b
  have hk := Run.topIndex_alike (p := fun t => t.isKeyword "DEFAULT" || t.isSymbol '=')
    (fun _ _ h => by rw [h.isKeyword, h.isSymbol]) 0 0 hr
  simp only at hm hr
  simp only [hm, hk]
  generalize Run.topIndex _ 0 0 rest' = n
  have hv := List.forall₂_drop (n + 1) hr
  simp only [Run.isEmpty_alike hv, Run.covered_alike f.text hv]
  have hd := List.forall₂_take n hr
  generalize rest.take n = decl at hd
  generalize rest'.take n = decl' at hd
  rw [isUnnamed_alike hd, Run.typeText_alike f.text hd]
  cases hd with
  | nil => exact .error (.malformed h.position)
  | cons hf hs =>
    simp only [hf.name, Run.typeText_alike f.text hs]
    apply Agree.ite
    · exact .ok rfl
    · exact .ok rfl

end Parameters

section Signatures

variable {ts us : List Token}

theorem ReturnSpec.splitSet_alike (h : List.Forall₂ (Token.Alike d) ts us) :
    (splitSet ts).1 = (splitSet us).1 ∧
      List.Forall₂ (Token.Alike d) (splitSet ts).2 (splitSet us).2 := by
  obtain _ | ⟨ha, _ | ⟨hb, hr⟩⟩ := h
  · exact ⟨rfl, .nil⟩
  · exact ⟨rfl, .cons ha .nil⟩
  · simp only [splitSet, ha.isKeyword]
    split
    · exact ⟨rfl, .cons hb hr⟩
    · exact ⟨rfl, .cons ha (.cons hb hr)⟩

theorem ReturnSpec.parse_alike (source : Text) (h : List.Forall₂ (Token.Alike d) ts us)
    (params : List Parameter) (catalog : Catalog) :
    Agree d Eq (parse source ts params catalog) (parse source us params catalog) := by
  obtain ⟨hs, hr⟩ := splitSet_alike h
  rw [parse, parse]
  generalize splitSet ts = a at hs hr
  generalize splitSet us = b at hs hr
  obtain ⟨isSet, rest⟩ := a
  obtain ⟨isSet', rest'⟩ := b
  simp only at hs hr
  simp only [hs, Run.typeText_alike source hr]
  obtain _ | ⟨ht, _ | ⟨ho, hm⟩⟩ := hr
  · exact .ok rfl
  · exact .ok rfl
  · simp only [ht.isKeyword, ho.isSymbol]
    apply Agree.ite
    · apply ColumnList.parenthesized_alike _ source ho hm
      intro columns
      exact .ok rfl
    · exact .ok rfl

theorem Signature.returnSpec_alike {s t : Statement} (hs : s.Alike d t) (name : Text)
    (params : List Parameter) (catalog : Catalog) (depth : Nat)
    (h : List.Forall₂ (Token.Alike d) ts us) :
    Agree d Eq (returnSpec s name params catalog depth ts)
      (returnSpec t name params catalog depth us) := by
  cases h with
  | nil => exact .ok rfl
  | @cons _ _ _ more hf hr =>
    have hk := Run.topIndex_alike (fun _ _ h => h.isAnyKeyword clauseEnds) depth 0 hr
    simp only [returnSpec, hf.isKeyword, hk, ← hs.text]
    have hc := List.forall₂_take (Run.topIndex (·.isAnyKeyword clauseEnds) depth 0 more) hr
    apply Agree.ite
    · rw [Run.isEmpty_alike hc]
      apply Agree.ite
      · exact .error (.malformed hs.position)
      · exact ReturnSpec.parse_alike s.text hc params catalog
    · exact .ok rfl

theorem Signature.parse_alike {s t : Statement} (hs : s.Alike d t) (catalog : Catalog) :
    Agree d (Alike d) (parse s catalog) (parse t catalog) := by
  have hr {α : Type} {S : α → α → Prop} (cause : Malformation) :
      Agree d S (.error (.malformed cause s.position (snippet s.text)))
        (.error (.malformed cause t.position (snippet s.text))) := .error (.malformed hs.position)
  rw [parse, parse, ← hs.text]
  apply (significantTokens_alike hs.position s.text).bind
  intro ts us hts
  have hd := Run.dropWhile_alike (p := fun t => !t.isKeyword "FUNCTION")
    (fun _ _ h => by rw [h.isKeyword]) hts
  generalize ts.dropWhile (fun t => !t.isKeyword "FUNCTION") = a at hd
  generalize us.dropWhile (fun t => !t.isKeyword "FUNCTION") = b at hd
  obtain _ | @⟨_, _, header, header', -, hh⟩ := hd
  · exact hr _
  have hq := Run.qualifiedName?_alike hh
  simp only
  generalize Run.qualifiedName? header = a at hq
  generalize Run.qualifiedName? header' = b at hq
  obtain @⟨⟨name, after⟩, ⟨name', after'⟩, hn, ha⟩ | _ := hq
  · obtain _ | ⟨ho, hm⟩ := ha
    · exact hr _
    · simp only [ho.isSymbol]
      apply Agree.ite
      · exact hr _
      · apply (Run.parenthesized_alike s.text ho hm).bind
        intro list list' hl
        rw [← hl.text]
        apply (splitTopLevel_alike hl.origin list.text).bind
        intro fs gs hfs
        apply (Agree.mapM hfs fun _ _ => Parameter.parse_alike).bind
        intro params params' hp
        rw [List.forall₂_eq_eq_eq] at hp
        have hdepth := Run.depth_alike 0 (List.forall₂_take (us.length - list'.after.length) hts)
        rw [hts.length_eq, hl.after.length_eq, hdepth, Run.spelledName_alike hn, hp]
        apply (returnSpec_alike hs _ _ catalog _ hl.after).bind
        rintro returns _ rfl
        exact .ok ⟨Run.covered_alike s.text hn, rfl, hs.doc, rfl, rfl, hs.position⟩
  · exact hr _

end Signatures

namespace StatementKind

variable {ts us : List Token}

theorem dropOrReplace_alike (h : List.Forall₂ (Token.Alike d) ts us) :
    List.Forall₂ (Token.Alike d) (dropOrReplace ts) (dropOrReplace us) := by
  obtain _ | ⟨ha, _ | ⟨hb, hr⟩⟩ := h
  · exact .nil
  · exact .cons ha .nil
  · rw [dropOrReplace, dropOrReplace, ha.isKeyword, hb.isKeyword]
    split
    · exact hr
    · exact .cons ha (.cons hb hr)

theorem split_alike (h : List.Forall₂ (Token.Alike d) ts us) :
    (split ts).1 = (split us).1 ∧ List.Forall₂ (Token.Alike d) (split ts).2 (split us).2 := by
  cases h with
  | nil => exact ⟨rfl, .nil⟩
  | cons hc hr =>
    have hd := Run.dropWhile_alike (p := fun t => t.isAnyKeyword tableModifiers)
      (fun _ _ h => h.isAnyKeyword _) (dropOrReplace_alike hr)
    rw [split, split, hc.isKeyword]
    split
    · exact ⟨rfl, .nil⟩
    · revert hd
      generalize (dropOrReplace _).dropWhile _ = a
      generalize (dropOrReplace _).dropWhile _ = b
      intro hd
      cases hd with
      | nil => exact ⟨rfl, .nil⟩
      | cons ht hm => exact ⟨ht.congr (f := ofToken) fun _ _ => rfl, hm⟩

end StatementKind

namespace Declaration

variable {s t : Statement} {ts us : List Token}

theorem objectName_alike (hs : s.Alike d t) (h : List.Forall₂ (Token.Alike d) ts us) :
    Agree d (fun a b => a.1 = b.1 ∧ List.Forall₂ (Token.Alike d) a.2 b.2) (objectName s ts)
      (objectName t us) := by
  have hq := Run.qualifiedName?_alike h
  rw [objectName, objectName, ← hs.text]
  generalize Run.qualifiedName? ts = a at hq
  generalize Run.qualifiedName? us = b at hq
  obtain ⟨hn, ha⟩ | _ := hq
  · exact .ok ⟨Run.spelledName_alike hn, ha⟩
  · exact .error (.malformed hs.position)

theorem dropIfNotExists_alike (h : List.Forall₂ (Token.Alike d) ts us) :
    List.Forall₂ (Token.Alike d) (dropIfNotExists ts) (dropIfNotExists us) := by
  obtain _ | ⟨ha, _ | ⟨hb, _ | ⟨hc, hr⟩⟩⟩ := h
  · exact .nil
  · exact .cons ha .nil
  · exact .cons ha (.cons hb .nil)
  · rw [dropIfNotExists, dropIfNotExists, ha.isKeyword, hb.isKeyword, hc.isKeyword]
    split
    · exact hr
    · exact .cons ha (.cons hb (.cons hc hr))

theorem ofTable_alike (hs : s.Alike d t) (h : List.Forall₂ (Token.Alike d) ts us) :
    Agree d (Alike d) (ofTable s ts) (ofTable t us) := by
  apply (objectName_alike hs (dropIfNotExists_alike h)).bind
  rintro ⟨name, rest⟩ ⟨_, rest'⟩ ⟨rfl, hr⟩
  cases hr with
  | nil => exact .ok (.same rfl)
  | cons ho hm =>
    simp only [ho.isSymbol, ← hs.text]
    apply Agree.ite
    · exact .ok (.same rfl)
    · apply ColumnList.parenthesized_alike _ s.text ho hm
      intro columns
      exact .ok (.same rfl)

theorem ofEnum_alike (hs : s.Alike d t) (name : Text) (h : List.Forall₂ (Token.Alike d) ts us) :
    Agree d (Alike d) (ofEnum s name ts) (ofEnum t name us) := by
  cases h with
  | nil => exact .ok (.same rfl)
  | cons ho hr =>
    simp only [ofEnum, ho.isSymbol, ← hs.text]
    apply Agree.ite
    · exact .ok (.same rfl)
    · apply (Run.parenthesized_alike s.text ho hr).bind
      intro list list' hl
      have hv : list.inner.map Token.stringValue? = list'.inner.map Token.stringValue? :=
        map_eq_of_forall₂ hl.inner fun _ _ h => h.congr fun _ _ => rfl
      have hv := congrArg (List.filterMap id) hv
      rw [List.filterMap_map, List.filterMap_map, Function.id_comp] at hv
      rw [hv]
      exact .ok (.same rfl)

theorem ofComposite_alike (hs : s.Alike d t) (name : Text)
    (h : List.Forall₂ (Token.Alike d) ts us) :
    Agree d (Alike d) (ofComposite s name ts) (ofComposite t name us) := by
  cases h with
  | nil => exact .ok (.same rfl)
  | cons ho hr =>
    simp only [ofComposite, ho.isSymbol, ← hs.text]
    apply Agree.ite
    · exact .ok (.same rfl)
    · apply ColumnList.parenthesized_alike _ s.text ho hr
      intro columns
      exact .ok (.same rfl)

theorem ofType_alike (hs : s.Alike d t) (h : List.Forall₂ (Token.Alike d) ts us) :
    Agree d (Alike d) (ofType s ts) (ofType t us) := by
  apply (objectName_alike hs h).bind
  rintro ⟨name, rest⟩ ⟨_, rest'⟩ ⟨rfl, hr⟩
  obtain _ | ⟨ha, hm⟩ := hr
  · exact .ok (.same rfl)
  · simp only [ha.isKeyword]
    apply Agree.ite
    · exact .ok (.same rfl)
    · cases hm with
      | nil => exact .ok (.same rfl)
      | cons hk hl =>
        simp only [hk.isKeyword]
        apply Agree.ite
        · exact ofEnum_alike hs name hl
        · exact ofComposite_alike hs name (.cons hk hl)

theorem ofDomain_alike (hs : s.Alike d t) (h : List.Forall₂ (Token.Alike d) ts us) :
    Agree d (Alike d) (ofDomain s ts) (ofDomain t us) := by
  apply (objectName_alike hs h).bind
  rintro ⟨name, rest⟩ ⟨_, rest'⟩ ⟨rfl, hr⟩
  have hb : List.Forall₂ (Token.Alike d)
      (if rest.head?.any (·.isKeyword "AS") then rest.drop 1 else rest)
      (if rest'.head?.any (·.isKeyword "AS") then rest'.drop 1 else rest') := by
    rw [Run.head?_any_alike (fun _ _ h => h.isKeyword _) hr]
    split
    · exact List.forall₂_drop 1 hr
    · exact hr
  simp only
  generalize (if rest.head?.any (·.isKeyword "AS") then rest.drop 1 else rest) = base at hb
  generalize (if rest'.head?.any (·.isKeyword "AS") then rest'.drop 1 else rest') = base' at hb
  have hk := Run.topIndex_alike (fun _ _ h => h.isAnyKeyword baseTypeEnds) 0 0 hb
  have ht := List.forall₂_take (Run.topIndex (·.isAnyKeyword baseTypeEnds) 0 0 base') hb
  rw [hk, Run.isEmpty_alike ht, ← hs.text, Run.typeText_alike s.text ht]
  apply Agree.ite
  · exact .error (.malformed hs.position)
  · exact .ok (.same rfl)

theorem ofStatement_alike (hs : s.Alike d t) :
    Agree d (Alike d) (ofStatement s) (ofStatement t) := by
  rw [ofStatement, ofStatement, ← hs.text]
  apply (significantTokens_alike hs.position s.text).bind
  intro ts us hts
  obtain ⟨hk, hr⟩ := StatementKind.split_alike hts
  generalize StatementKind.split ts = a at hk hr
  generalize StatementKind.split us = b at hk hr
  obtain ⟨kind, rest⟩ := a
  obtain ⟨_, rest'⟩ := b
  simp only at hk hr
  subst hk
  cases kind with
  | table => exact ofTable_alike hs hr
  | type => exact ofType_alike hs hr
  | domain => exact ofDomain_alike hs hr
  | function => exact .ok (.function hs)
  | other => exact .ok (.same rfl)

end Declaration

section Down

variable (n : Nat)

/-- The signature of a function that stands `n` lines further down. -/
def Signature.down (s : Signature) : Signature :=
  { s with position := s.position.down n }

/-- What a statement declares that stands `n` lines further down. -/
def Declaration.down : Declaration → Declaration
  | .function statement => .function (statement.down n)
  | d => d

theorem Statement.alike_down (s : Statement) : s.Alike (.down n) (s.down n) :=
  ⟨rfl, rfl, rfl⟩

theorem Signature.parse_down (s : Statement) (catalog : Catalog) :
    parse (s.down n) catalog = lowered n (down n) (parse s catalog) := by
  apply Agree.lowered
  apply (parse_alike (s.alike_down n) catalog).imp
  intro a b h
  obtain ⟨callName, name, doc, params, returns, position⟩ := b
  obtain ⟨rfl, rfl, rfl, rfl, rfl, rfl⟩ := h
  rfl

theorem Declaration.ofStatement_down (s : Statement) :
    ofStatement (s.down n) = lowered n (down n) (ofStatement s) := by
  apply Agree.lowered
  apply (ofStatement_alike (s.alike_down n)).imp
  intro a b h
  cases h with
  | @function s t h =>
    obtain ⟨text, position, doc⟩ := t
    obtain ⟨rfl, rfl, rfl⟩ := h
    rfl
  | same h => cases a <;> first | rfl | contradiction

theorem Declaration.function?_down (d : Declaration) :
    (d.down n).function? = d.function?.map (Statement.down n) := by
  cases d <;> rfl

theorem Catalog.declare_down (c : Catalog) (d : Declaration) :
    c.declare (d.down n) = c.declare d := by
  cases d <;> rfl

end Down

end Bindery

import Bindery.Proofs.Schema.Parsed
import Bindery.Proofs.Signature.Header
import Bindery.Proofs.Signature.Writing

namespace Bindery

open Piece (symbol space defaultClause)

namespace Parameter

def beginsDefault (t : Token) : Bool :=
  t.isKeyword "DEFAULT" || t.isSymbol '='

theorem parse_eq {text : Text} {position : Position} {mode first : Token} {m : ParamMode}
    {sqlType value : List Token}
    (ht : significantTokens text position = .ok (mode :: (first :: sqlType ++ value)))
    (hm : ParamMode.ofToken? mode = some m) (hs : ∀ t ∈ first :: sqlType, beginsDefault t = false)
    (hd : Run.depth 0 (first :: sqlType) = 0) (hv : Run.topIndex beginsDefault 0 0 value = 0)
    (hn : isUnnamed (first :: sqlType) (Run.typeText text (first :: sqlType)) = false) :
    parse ⟨text, position⟩ = .ok ⟨some first.name, m, Run.typeText text sqlType,
      if value.tail.isEmpty then none else some (Run.covered text value.tail)⟩ := by
  have hi : Run.topIndex (fun t => t.isKeyword "DEFAULT" || t.isSymbol '=') 0 0
      (first :: sqlType ++ value) = (first :: sqlType).length := by
    have hi := Run.topIndex_append hs 0 0 value
    rwa [hd, Nat.zero_sub, hv, Nat.add_zero] at hi
  have hsplit : ParamMode.split (mode :: (first :: sqlType ++ value)) =
      (m, first :: sqlType ++ value) := by
    simp [ParamMode.split, hm]
  have hdrop : (first :: sqlType ++ value).drop ((first :: sqlType).length + 1) = value.tail := by
    rw [← List.drop_drop, List.drop_left, List.drop_one]
  rw [parse, ht]
  simp only [bind, Except.bind, hsplit, hi, hdrop, List.take_left]
  rw [hn]
  rfl

end Parameter

namespace ParameterSpec

variable (p : ParameterSpec)

theorem not_beginsDefault (offset : Nat) (position : Position) :
    ∀ t ∈ Piece.placeCode offset position p.declaration.pieces,
      Parameter.beginsDefault t = false := by
  intro t ht
  obtain ⟨q, hq, hk, hx⟩ := Piece.exists_piece_of_mem_place (List.mem_of_mem_filter ht)
  have hword : t.isKeyword "DEFAULT" = false := by
    rw [Token.isKeyword, hk, hx, Bool.and_eq_false_imp, beq_iff_eq]
    intro hw
    exact p.not_default _ (p.declaration.mem_words_of_mem_pieces hq hw)
  have hmark : t.isSymbol '=' = false := by
    rw [Token.isSymbol, hk, hx, Bool.and_eq_false_imp, beq_iff_eq]
    intro hm
    obtain ⟨c, hc, hq⟩ := (p.declaration.matched_pieces false).mark_of_mem hq hm
    rw [hq, List.head?_cons, beq_eq_false_iff_ne, ne_eq, Option.some.injEq]
    exact ne_of_mem_of_not_mem hc (by decide)
  rw [Parameter.beginsDefault, hword, hmark]
  rfl

theorem topIndex_defaultClause (value : Option Text) (offset : Nat) (position : Position) :
    Run.topIndex Parameter.beginsDefault 0 0
      (Piece.placeCode offset position (defaultClause value)) = 0 := by
  cases value with
  | none => rfl
  | some value => exact Run.topIndex_of_stop (by simp) rfl _

def lead : Text :=
  p.mode.keyword ++ " "

def typeLead : Text :=
  p.lead ++ (p.name ++ " ")

def nameToken (position : Position) : Token :=
  ⟨.word, p.name, p.lead.byteSize, position.advance p.lead⟩

def typeTokens (position : Position) : List Token :=
  Piece.placeCode p.typeLead.byteSize (position.advance p.typeLead) p.sqlType.pieces

def defaultTokens (position : Position) : List Token :=
  Piece.placeCode (p.lead ++ Piece.print p.declaration.pieces).byteSize
    (position.advance (p.lead ++ Piece.print p.declaration.pieces)) (defaultClause p.default)

theorem placeCode_declaration (position : Position) :
    Piece.placeCode p.lead.byteSize (position.advance p.lead) p.declaration.pieces =
      p.nameToken position :: p.typeTokens position := by
  rw [pieces_declaration, Piece.placeCode_cons_code rfl, Piece.placeCode_cons_trivia rfl]
  simp [nameToken, typeTokens, typeLead, Text.byteSize_append, Text.byteSize,
    Position.advance_append, Nat.add_assoc, space]

theorem significantTokens_eq (position : Position) :
    significantTokens p.print position = .ok (⟨.word, p.mode.keyword, 0, position⟩ ::
      (p.nameToken position :: p.typeTokens position ++ p.defaultTokens position)) := by
  rw [← print_pieces, significantTokens_print (p.spelled_pieces breaks_nil), pieces,
    Piece.placeCode_cons_code rfl, Piece.placeCode_cons_trivia rfl, Piece.placeCode_append,
    ← placeCode_declaration]
  simp [defaultTokens, lead, Text.byteSize_append, Text.byteSize, Position.advance_append,
    Nat.add_assoc, space]

theorem print_eq : p.print = p.lead ++ (Piece.print p.declaration.pieces ++
    Piece.print (defaultClause p.default)) := by
  rw [← print_pieces, pieces]
  simp [lead, space]

theorem typeText_declaration (position : Position) :
    Run.typeText p.print (p.nameToken position :: p.typeTokens position) =
      p.name ++ (" " ++ p.sqlType.print) := by
  rw [← placeCode_declaration, print_eq, TypePhrase.typeText_eq, print_declaration]

theorem typeText_typeTokens (position : Position) :
    Run.typeText p.print (p.typeTokens position) = p.sqlType.print := by
  have hs : p.print = p.typeLead ++ (Piece.print p.sqlType.pieces ++
      Piece.print (defaultClause p.default)) := by
    rw [print_eq, pieces_declaration, typeLead]
    simp [space]
  rw [hs, typeTokens, TypePhrase.typeText_eq]

theorem default_eq (position : Position) :
    (if (p.defaultTokens position).tail.isEmpty then none
      else some (Run.covered p.print (p.defaultTokens position).tail)) =
      p.default.map (Text.inQuotes '\'') := by
  rw [print_eq, defaultTokens, ← List.append_assoc]
  generalize p.lead ++ Piece.print p.declaration.pieces = before
  cases p.default with
  | none => rfl
  | some value =>
    have hb : Piece.Bounded [Piece.literal value] := Piece.bounded_singleton rfl
    have hs : before ++ Piece.print (defaultClause (some value)) =
        (before ++ (" DEFAULT " : Text)) ++ (Piece.print [Piece.literal value] ++ []) := by
      simp [defaultClause, space]
    have ht : (Piece.placeCode before.byteSize (position.advance before)
        (defaultClause (some value))).tail =
          Piece.placeCode (before ++ (" DEFAULT " : Text)).byteSize
            (position.advance (before ++ (" DEFAULT " : Text))) [Piece.literal value] := by
      rw [defaultClause, Option.map_some, Option.getD_some, Piece.placeCode_cons_trivia rfl,
        Piece.placeCode_cons_code rfl, List.tail_cons, Piece.placeCode_cons_trivia rfl]
      simp [Text.byteSize_append, Text.byteSize, Position.advance_append, Nat.add_assoc, space]
    rw [ht, hs, hb.covered_eq, Piece.placeCode_cons_code rfl, Piece.print_cons]
    exact congrArg some (List.append_nil _)

theorem isUnnamed_eq (position : Position) :
    Parameter.isUnnamed (p.nameToken position :: p.typeTokens position)
      (p.name ++ (" " ++ p.sqlType.print)) = false := by
  obtain ⟨ps, hp⟩ := p.sqlType.exists_pieces
  rw [typeTokens, hp, Piece.placeCode_cons_code rfl, Parameter.isUnnamed, p.not_primitive]
  rfl

theorem parse_print (position : Position) :
    Parameter.parse ⟨p.print, position⟩ = .ok p.parameter := by
  have hmode : ParamMode.ofToken? ⟨.word, p.mode.keyword, 0, position⟩ = some p.mode := by
    cases p.mode <;> rfl
  have hd := (p.declaration.matched_pieces false).depth_eq p.lead.byteSize
    (position.advance p.lead) 0
  have hb := p.not_beginsDefault p.lead.byteSize (position.advance p.lead)
  have hu := p.isUnnamed_eq position
  have hv : Run.topIndex Parameter.beginsDefault 0 0 (p.defaultTokens position) = 0 :=
    topIndex_defaultClause _ _ _
  rw [placeCode_declaration] at hd hb
  rw [← p.typeText_declaration position] at hu
  rw [Parameter.parse_eq (p.significantTokens_eq position) hmode hb hd hv hu,
    p.typeText_typeTokens, p.default_eq]
  rfl

end ParameterSpec

namespace FunctionSpec

variable (f : FunctionSpec)

def lead : Text :=
  "CREATE FUNCTION " ++ (f.name ++ "(")

/-- What stands before the parenthesis that closes the list. -/
def leadAndList : Text :=
  f.lead ++ Piece.print f.listPieces

def header (position : Position) : Signature.Header where
  front := [⟨.word, "CREATE", 0, position⟩]
  function := ⟨.word, "FUNCTION", Text.byteSize "CREATE ", position.advance "CREATE "⟩
  name := [⟨.word, f.name, Text.byteSize "CREATE FUNCTION ", position.advance "CREATE FUNCTION "⟩]
  opening := ⟨.symbol, ['('], Text.byteSize ("CREATE FUNCTION " ++ f.name),
    position.advance ("CREATE FUNCTION " ++ f.name)⟩
  inner := Piece.placeCode f.lead.byteSize (position.advance f.lead) f.listPieces
  closing := ⟨.symbol, [')'], f.leadAndList.byteSize, position.advance f.leadAndList⟩
  front_other := List.forall_mem_singleton.mpr rfl
  isFunction := rfl
  isName := .last rfl
  opens := rfl
  inner_balanced := f.matched_listPieces.balanced _ _
  closes := rfl

def clause (position : Position) : List Token :=
  Piece.placeCode (f.leadAndList ++ (")" : Text)).byteSize
    (position.advance (f.leadAndList ++ (")" : Text)))
    [space, ⟨.word, "RETURNS"⟩, space, ⟨.word, "void"⟩]

theorem print_frontPieces : Piece.print f.frontPieces = f.lead := rfl

theorem significantTokens_eq (position : Position) :
    significantTokens f.print position = .ok ((f.header position).before (f.clause position)) := by
  have hn (offset : Nat) (position : Position) : Piece.placeCode offset position [] = [] := rfl
  rw [← print_pieces, significantTokens_print f.spelled_pieces, pieces, Piece.placeCode_append,
    Piece.placeCode_append, print_frontPieces, frontPieces, backPieces,
    Piece.placeCode_cons_code rfl, Piece.placeCode_cons_trivia rfl, Piece.placeCode_cons_code rfl,
    Piece.placeCode_cons_trivia rfl, Piece.placeCode_cons_code rfl, Piece.placeCode_cons_code rfl,
    Piece.placeCode_cons_code rfl, hn]
  simp [Signature.Header.before, header, clause, leadAndList, Text.byteSize_append, Text.byteSize,
    Position.advance_append, Nat.add_assoc, space, symbol]

theorem print_eq : f.print = f.leadAndList ++ ") RETURNS void" := by
  unfold print leadAndList lead
  rw [print_listPieces]
  simp only [List.append_assoc]

theorem list_header (position : Position) :
    (f.header position).list f.print = Piece.print f.listPieces := by
  have ho : (f.header position).opening.stop = f.lead.byteSize := by
    unfold lead
    rw [← List.append_assoc, Text.byteSize_append ("CREATE FUNCTION " ++ f.name)]
    rfl
  rw [Signature.Header.list, ho, print_eq]
  unfold leadAndList
  rw [List.append_assoc]
  change Text.between _ _ (f.lead ++ Piece.print f.listPieces).byteSize = _
  rw [Text.byteSize_append]
  exact Text.between_append _ _ _

theorem mapM_parse_print {specs : List ParameterSpec} {fragments : List Fragment}
    (h : fragments.map Fragment.text = specs.map ParameterSpec.print) :
    fragments.mapM Parameter.parse = .ok (specs.map ParameterSpec.parameter) := by
  induction fragments generalizing specs with
  | nil =>
    rw [List.map_eq_nil_iff.mp h.symm]
    rfl
  | cons g fragments ih =>
    cases specs with
    | nil => cases h
    | cons p specs =>
      obtain ⟨hg, hs⟩ := List.cons.inj h
      have hp : Parameter.parse g = .ok p.parameter := by
        have hp := p.parse_print g.position
        rw [← hg] at hp
        exact hp
      rw [List.mapM_cons, hp, ih hs]
      rfl

theorem params_header (position : Position) :
    (f.header position).params f.print = .ok (f.params.map ParameterSpec.parameter) := by
  obtain ⟨fragments, hf, ht⟩ := splitTopLevel_print (f.spelled_listPieces breaks_nil)
    (by
      intro inside x hx
      obtain ⟨p, -, rfl⟩ := List.mem_map.mp hx
      exact p.matched_pieces inside)
    (by
      intro x hx
      obtain ⟨p, -, rfl⟩ := List.mem_map.mp hx
      exact p.bounded_pieces.tight (p.spelled_pieces breaks_nil))
    ((f.header position).opening.position.next '(')
  rw [ParameterSpec.map_print_pieces] at ht
  rw [Signature.Header.params, list_header, listPieces, hf]
  exact mapM_parse_print ht

theorem depth_header (position : Position) : Run.depth 0 (f.header position).tokens = 0 := by
  have hd := f.matched_listPieces.depth_eq f.lead.byteSize (position.advance f.lead) 1
  change Run.depth 1 ((f.header position).inner ++ [(f.header position).closing]) = 0
  rw [Run.depth_append]
  change Run.depth (Run.depth 1 (Piece.placeCode _ _ f.listPieces)) _ = 0
  rw [hd]
  rfl

theorem ofType_void (params : List Parameter) (catalog : Catalog) :
    ReturnSpec.ofType "void" false params catalog = ⟨.void, false⟩ := by
  have hv : TypeRef.parse "void" = ⟨"void", 0⟩ := by decide +kernel
  unfold ReturnSpec.ofType
  rw [hv]
  rfl

theorem typeText_clause (position : Position) :
    Run.typeText f.print (f.clause position).tail = "void" := by
  have hb : Piece.Bounded [⟨.word, "void"⟩] := Piece.bounded_singleton rfl
  have hs : f.print = (f.leadAndList ++ (") RETURNS " : Text)) ++
      (Piece.print [⟨.word, "void"⟩] ++ []) := by
    rw [print_eq, List.append_assoc]
    rfl
  have ht : (f.clause position).tail =
      Piece.placeCode (f.leadAndList ++ (") RETURNS " : Text)).byteSize
        (position.advance (f.leadAndList ++ (") RETURNS " : Text))) [⟨.word, "void"⟩] := by
    rw [clause, Piece.placeCode_cons_trivia rfl, Piece.placeCode_cons_code rfl, List.tail_cons,
      Piece.placeCode_cons_trivia rfl]
    simp [Text.byteSize_append, Text.byteSize, Position.advance_append, Nat.add_assoc, space]
  rw [Run.typeText, hs, ht, hb.covered_eq]
  decide

theorem returnSpec_clause {s : Statement} (hs : s.text = f.print) (name : Text)
    (params : List Parameter) (catalog : Catalog) (position : Position) :
    Signature.returnSpec s name params catalog 0 (f.clause position) = .ok ⟨.void, false⟩ := by
  have hv := f.typeText_clause position
  have hc : ∃ n m p q, f.clause position = [⟨.word, "RETURNS", n, p⟩, ⟨.word, "void", m, q⟩] :=
    ⟨_, _, _, _, rfl⟩
  obtain ⟨n, m, p, q, hc⟩ := hc
  rw [hc, List.tail_cons, ← hs] at hv
  rw [hc]
  refine (Signature.returnSpec_eq s name params catalog rfl (List.cons_ne_nil _ []) rfl).trans ?_
  change Except.ok (ReturnSpec.ofType (Run.typeText s.text [⟨.word, "void", m, q⟩]) false params
    catalog) = _
  rw [hv, ofType_void]

theorem covered_name (position : Position) :
    Run.covered f.print (f.header position).name = f.name := by
  have hb : Piece.Bounded [⟨.word, f.name⟩] := Piece.bounded_singleton rfl
  have hc := hb.covered_eq "CREATE FUNCTION " ("(" ++
    (Text.join ", " (f.params.map ParameterSpec.print) ++ ") RETURNS void"))
    (position.advance "CREATE FUNCTION ")
  rw [Piece.print_cons, Piece.print_nil, List.append_nil] at hc
  exact hc

theorem spelledName_name (position : Position) :
    Run.spelledName (f.header position).name = f.name := by
  change Text.join "." [f.name] = f.name
  rw [Text.join, List.intercalate_singleton]

/--
Parameters that are written in the statement of a function are read back as these parameters: in
order, the modes, the names, the types and the defaults as they were written.
-/
theorem parse_print_signature (position : Position) (doc : Option Text) (catalog : Catalog) :
    Signature.parse ⟨f.print, position, doc⟩ catalog = .ok (f.signature doc position) := by
  have ht : significantTokens (Statement.mk f.print position doc).text position = _ :=
    f.significantTokens_eq position
  rw [(f.header position).parse_eq ht, f.depth_header, bind_eq_ok_iff]
  refine ⟨_, f.params_header position, bind_eq_ok_iff.mpr ⟨_, f.returnSpec_clause rfl _ _ _ _, ?_⟩⟩
  unfold Signature.Header.signature
  rw [f.covered_name, f.spelledName_name]
  rfl

end FunctionSpec

/-- A type of two words with array brackets. -/
def limitsParameter : ParameterSpec where
  mode := .both
  name := "limits"
  sqlType :=
    { first := "double"
      more := ["precision"]
      isWord := by
        rw [List.forall_mem_cons, List.forall_mem_singleton]
        exact ⟨isWord_of_all (by decide) (by decide), isWord_of_all (by decide) (by decide)⟩
      modifier := none
      dimensions := 2 }
  default := none
  isWord := isWord_of_all (by decide) (by decide)
  not_default := by decide
  not_primitive := by decide +kernel

/-- A name that is a mode, a type with a modifier, a default that looks like the end of the list. -/
def modeParameter : ParameterSpec where
  mode := .variadic
  name := "in"
  sqlType :=
    { first := "decimal"
      more := []
      isWord := List.forall_mem_singleton.mpr (isWord_of_all (by decide) (by decide))
      modifier := some ⟨[⟨"12", isDigits_of_all (by decide) (by decide)⟩,
        ⟨"4", isDigits_of_all (by decide) (by decide)⟩], true⟩
      dimensions := 0 }
  default := some "it's) RETURNS int".toList
  isWord := isWord_of_all (by decide) (by decide)
  not_default := by decide
  not_primitive := by decide +kernel

def twoParameters : FunctionSpec :=
  ⟨"f", isWord_of_all (by decide) (by decide), [limitsParameter, modeParameter]⟩

theorem parse_print_signature_of_two :
    Signature.parse
        ⟨"CREATE FUNCTION f(INOUT limits double precision[][], " ++
          "VARIADIC in decimal(12, 4) DEFAULT 'it''s) RETURNS int') RETURNS void",
          .start, none⟩ {} =
      .ok ⟨"f", "f", none, [⟨some "limits", .both, "double precision[][]", none⟩,
        ⟨some "in", .variadic, "decimal(12, 4)", some "'it''s) RETURNS int'"⟩], ⟨.void, false⟩,
        .start⟩ := by
  have ht : twoParameters.print = "CREATE FUNCTION f(INOUT limits double precision[][], " ++
      "VARIADIC in decimal(12, 4) DEFAULT 'it''s) RETURNS int') RETURNS void" := by
    decide +kernel
  rw [← ht]
  exact twoParameters.parse_print_signature .start none {}

end Bindery

import Bindery.Proofs.Type.Writing
import Bindery.Signature

namespace Bindery

open Text (Stops)
open Piece (symbol space defaultClause)

def ParamMode.keyword : ParamMode → Text
  | input => "IN"
  | output => "OUT"
  | both => "INOUT"
  | variadic => "VARIADIC"

/-- A parameter to be written. Name and type together are not the name of a primitive type, and no
word of them is the one that begins a default. -/
structure ParameterSpec where
  mode : ParamMode
  name : Text
  sqlType : TypePhrase
  default : Option Text
  isWord : IsWord name
  not_default : ∀ w ∈ name :: sqlType.words, w.sameIgnoringCase "DEFAULT" = false
  not_primitive : Scalar.ofSqlName? (TypeRef.parse (name ++ (" " ++ sqlType.print))).base = none

namespace ParameterSpec

variable (p : ParameterSpec)

/-- The mode, the name, the type, the default in single quotes. -/
def print : Text :=
  p.mode.keyword ++ (" " ++ (p.name ++ (" " ++ (p.sqlType.print ++
    (p.default.map fun value => " DEFAULT " ++ Text.inQuotes '\'' value).getD []))))

def parameter : Parameter where
  name := some p.name
  mode := p.mode
  sqlType := p.sqlType.print
  default := p.default.map (Text.inQuotes '\'')

/-- Name and type are written like a type of one more word. -/
def declaration : TypePhrase where
  first := p.name
  more := p.sqlType.words
  isWord := List.forall_mem_cons.mpr ⟨p.isWord, p.sqlType.isWord⟩
  modifier := p.sqlType.modifier
  dimensions := p.sqlType.dimensions

def pieces : List Piece :=
  ⟨.word, p.mode.keyword⟩ :: space :: (p.declaration.pieces ++ defaultClause p.default)

theorem pieces_declaration :
    p.declaration.pieces = ⟨.word, p.name⟩ :: space :: p.sqlType.pieces := by
  change [space].intercalate ([⟨.word, p.name⟩] :: [⟨.word, p.sqlType.first⟩] :: _) ++ _ = _
  rw [List.intercalate_cons_cons]
  rfl

theorem print_declaration : p.declaration.print = p.name ++ (" " ++ p.sqlType.print) := by
  rw [← TypePhrase.print_pieces, pieces_declaration, Piece.print_cons, Piece.print_cons,
    TypePhrase.print_pieces]
  rfl

theorem print_pieces : Piece.print p.pieces = p.print := by
  rw [pieces, Piece.print_cons, Piece.print_cons, Piece.print_append, TypePhrase.print_pieces,
    print_declaration, Piece.print_defaultClause]
  simp [print, space]

theorem map_print_pieces (specs : List ParameterSpec) :
    (specs.map pieces).map Piece.print = specs.map print := by
  rw [List.map_map]
  exact List.map_congr_left fun p _ => p.print_pieces

theorem isWord_keyword (m : ParamMode) : IsWord m.keyword := by
  cases m <;> exact isWord_of_all (by decide) (by decide)

theorem spelled_pieces {rest : Text} (hr : Breaks rest) : Piece.Spelled rest p.pieces := by
  refine ⟨(isWord_keyword p.mode).spells (breaks_cons (by decide) _), spells_space ?_, ?_⟩
  · rw [pieces_declaration, List.cons_append, Piece.print_cons, List.append_assoc]
    exact stops_blank_append p.isWord.ne_nil p.isWord.not_blank _
  · rw [Piece.spelled_append]
    exact ⟨p.declaration.spelled_pieces (Piece.breaks_defaultClause p.default hr),
      Piece.spelled_defaultClause p.default hr⟩

theorem matched_pieces (inside : Bool) : Piece.Matched inside p.pieces := by
  refine .plain (Piece.plain_word (isWord_keyword p.mode)) (.plain Piece.plain_space ?_)
  exact (p.declaration.matched_pieces inside).append (Piece.matched_defaultClause inside p.default)

theorem bounded_pieces : Piece.Bounded p.pieces := by
  have hm : Piece.Bounded [⟨.word, p.mode.keyword⟩] := Piece.bounded_singleton rfl
  have hd := hm.append p.declaration.bounded_pieces [space]
  simpa [pieces] using hd.append_defaultClause p.default

end ParameterSpec

/-- A function to be written, which returns nothing. -/
structure FunctionSpec where
  name : Text
  isWord : IsWord name
  params : List ParameterSpec

namespace FunctionSpec

variable (f : FunctionSpec)

def print : Text :=
  "CREATE FUNCTION " ++ (f.name ++ ("(" ++
    (Text.join ", " (f.params.map ParameterSpec.print) ++ ") RETURNS void")))

def signature (doc : Option Text) (position : Position) : Signature where
  callName := f.name
  name := f.name
  doc := doc
  params := f.params.map ParameterSpec.parameter
  returns := ⟨.void, false⟩
  position := position

def frontPieces : List Piece :=
  [⟨.word, "CREATE"⟩, space, ⟨.word, "FUNCTION"⟩, space, ⟨.word, f.name⟩, symbol '(']

def listPieces : List Piece :=
  Piece.separator.intercalate (f.params.map ParameterSpec.pieces)

def backPieces : List Piece :=
  [symbol ')', space, ⟨.word, "RETURNS"⟩, space, ⟨.word, "void"⟩]

def pieces : List Piece :=
  f.frontPieces ++ (f.listPieces ++ backPieces)

theorem print_listPieces :
    Piece.print f.listPieces = Text.join ", " (f.params.map ParameterSpec.print) := by
  rw [listPieces, Piece.print_intercalate, ParameterSpec.map_print_pieces]
  rfl

theorem print_pieces : Piece.print f.pieces = f.print := by
  have hf : Piece.print f.frontPieces = "CREATE FUNCTION " ++ (f.name ++ "(") := rfl
  have hb : Piece.print backPieces = ") RETURNS void" := rfl
  unfold pieces print
  rw [Piece.print_append, Piece.print_append, print_listPieces, hf, hb]
  simp only [List.append_assoc]

theorem spelled_listPieces {rest : Text} (hr : Breaks rest) : Piece.Spelled rest f.listPieces := by
  rw [listPieces]
  refine Piece.spelled_separated ?_ ?_ hr
  · intro x hx rest hr
    obtain ⟨p, -, rfl⟩ := List.mem_map.mp hx
    exact p.spelled_pieces hr
  · intro x hx rest
    obtain ⟨p, -, rfl⟩ := List.mem_map.mp hx
    rw [ParameterSpec.pieces, Piece.print_cons, List.append_assoc]
    have hw := ParameterSpec.isWord_keyword p.mode
    exact stops_blank_append hw.ne_nil hw.not_blank _

theorem spelled_pieces : Piece.Spelled [] f.pieces := by
  have hc : IsWord "CREATE" := isWord_of_all (by decide) (by decide)
  have hf : IsWord "FUNCTION" := isWord_of_all (by decide) (by decide)
  have hr : IsWord "RETURNS" := isWord_of_all (by decide) (by decide)
  have hv : IsWord "void" := isWord_of_all (by decide) (by decide)
  rw [pieces, Piece.spelled_append, Piece.spelled_append]
  refine ⟨?_, f.spelled_listPieces (breaks_cons (by decide) _), ?_⟩
  · refine ⟨hc.spells (breaks_cons (by decide) _), spells_space (Text.stops_cons.mpr (by decide)),
      hf.spells (breaks_cons (by decide) _), spells_space ?_, f.isWord.spells ?_,
      spells_mark (by decide) _, trivial⟩
    · rw [Piece.print_cons, List.append_assoc]
      exact stops_blank_append f.isWord.ne_nil f.isWord.not_blank _
    · exact breaks_cons (by decide) _
  · exact ⟨spells_mark (by decide) _, spells_space (Text.stops_cons.mpr (by decide)),
      hr.spells (breaks_cons (by decide) _), spells_space (Text.stops_cons.mpr (by decide)),
      hv.spells breaks_nil, trivial⟩

theorem matched_listPieces : Piece.Matched true f.listPieces := by
  apply Piece.matched_intercalate
  · exact .comma (.plain Piece.plain_space .nil)
  · intro x hx
    obtain ⟨p, -, rfl⟩ := List.mem_map.mp hx
    exact p.matched_pieces true

end FunctionSpec

end Bindery

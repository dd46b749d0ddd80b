import Bindery.Column
import Bindery.Proofs.Type.Writing

namespace Bindery

open Text (Stops)
open Lexeme

/-- A word of a type, none that ends the type. -/
structure TypeWord where
  text : Text
  isWord : IsWord text
  not_end : ∀ keyword ∈ Item.typeEnds, text.sameIgnoringCase keyword = false

/-- A type: words, a modifier and array brackets. -/
structure TypeSpec where
  first : TypeWord
  more : List TypeWord
  modifier : Option TypeModifier
  dimensions : Nat

/-- A column to be written. -/
structure ColumnSpec where
  name : Text
  sqlType : TypeSpec
  default : Option Text
  notNull : Bool

def TypeSpec.phrase (t : TypeSpec) : TypePhrase where
  first := t.first.text
  more := t.more.map TypeWord.text
  isWord := by
    rw [← List.map_cons, List.forall_mem_map]
    exact fun w _ => w.isWord
  modifier := t.modifier
  dimensions := t.dimensions

def TypeSpec.print (t : TypeSpec) : Text :=
  t.phrase.print

namespace ColumnSpec

/-- The name in double quotes, the type, the default in single quotes, the not-null clause. -/
def print (c : ColumnSpec) : Text :=
  Text.inQuotes '"' c.name ++ (" " ++ (c.sqlType.print ++
    ((c.default.map fun value => " DEFAULT " ++ Text.inQuotes '\'' value).getD [] ++
      if c.notNull then (" NOT NULL" : Text) else [])))

def column (c : ColumnSpec) : Column where
  name := c.name
  sqlType := c.sqlType.print
  nullable := !c.notNull
  default := c.default.map (Text.inQuotes '\'')

end ColumnSpec

namespace TypeSpec

variable (t : TypeSpec)

def pieces : List Piece :=
  t.phrase.pieces

theorem print_pieces : Piece.print t.pieces = t.print :=
  t.phrase.print_pieces

theorem spelled_pieces {rest : Text} (hr : Breaks rest) : Piece.Spelled rest t.pieces :=
  t.phrase.spelled_pieces hr

theorem matched_pieces (inside : Bool) : Piece.Matched inside t.pieces :=
  t.phrase.matched_pieces inside

theorem exists_word_of_mem_pieces {p : Piece} (h : p ∈ t.pieces) (hk : p.kind = .word) :
    ∃ w : TypeWord, p.text = w.text := by
  have hw : p.text ∈ (t.first :: t.more).map TypeWord.text := t.phrase.mem_words_of_mem_pieces h hk
  obtain ⟨w, -, hw⟩ := List.mem_map.mp hw
  exact ⟨w, hw.symm⟩

theorem bounded_pieces : Piece.Bounded t.pieces :=
  t.phrase.bounded_pieces

theorem spaced_print : t.print.Spaced :=
  t.phrase.spaced_print

end TypeSpec

namespace ColumnSpec

open Piece (symbol space)

variable (c : ColumnSpec)

def defaultPieces : List Piece :=
  Piece.defaultClause c.default

def notNullPieces : List Piece :=
  if c.notNull then [space, ⟨.word, "NOT"⟩, space, ⟨.word, "NULL"⟩] else []

def pieces : List Piece :=
  Piece.quotedName c.name :: space :: (c.sqlType.pieces ++ (c.defaultPieces ++ c.notNullPieces))

theorem print_pieces : Piece.print c.pieces = c.print := by
  have hd : Piece.print c.defaultPieces =
      (c.default.map fun value => " DEFAULT " ++ Text.inQuotes '\'' value).getD [] :=
    Piece.print_defaultClause c.default
  have hn : Piece.print c.notNullPieces = if c.notNull then (" NOT NULL" : Text) else [] := by
    unfold notNullPieces
    split <;> rfl
  rw [pieces, Piece.print_cons, Piece.print_cons, Piece.print_append, Piece.print_append, hd, hn,
    TypeSpec.print_pieces]
  rfl

theorem isWord_not : IsWord "NOT" :=
  isWord_of_all (by decide) (by decide)

theorem isWord_null : IsWord "NULL" :=
  isWord_of_all (by decide) (by decide)

theorem breaks_notNull {rest : Text} (hr : Breaks rest) :
    Breaks (Piece.print c.notNullPieces ++ rest) := by
  unfold notNullPieces
  split
  · exact breaks_cons (by decide) _
  · exact hr

theorem breaks_clauses {rest : Text} (hr : Breaks rest) :
    Breaks (Piece.print (c.defaultPieces ++ c.notNullPieces) ++ rest) := by
  rw [Piece.print_append, List.append_assoc]
  exact Piece.breaks_defaultClause c.default (c.breaks_notNull hr)

theorem spelled_notNull {rest : Text} (hr : Breaks rest) : Piece.Spelled rest c.notNullPieces := by
  unfold notNullPieces
  split
  · refine ⟨spells_space ?_, isWord_not.spells ?_, spells_space ?_, isWord_null.spells hr, trivial⟩
    · exact Text.stops_cons.mpr (by decide)
    · exact breaks_cons (by decide) _
    · exact Text.stops_cons.mpr (by decide)
  · trivial

theorem spelled_pieces {rest : Text} (hr : Breaks rest) : Piece.Spelled rest c.pieces := by
  have ht : (Piece.print c.sqlType.pieces).Tight :=
    c.sqlType.bounded_pieces.tight (c.sqlType.spelled_pieces breaks_nil)
  refine ⟨spells_quotedName _ (breaks_cons (by decide) _), spells_space ?_, ?_⟩
  · obtain ⟨d, u, hu, hd⟩ := ht.first
    rw [Piece.print_append, hu]
    exact Text.stops_cons.mpr hd
  · rw [Piece.spelled_append, Piece.spelled_append]
    exact ⟨c.sqlType.spelled_pieces (c.breaks_clauses hr),
      Piece.spelled_defaultClause c.default (c.breaks_notNull hr), c.spelled_notNull hr⟩

theorem matched_pieces (inside : Bool) : Piece.Matched inside c.pieces := by
  refine .plain (Piece.plain_quotedName _) (.plain Piece.plain_space ?_)
  apply (c.sqlType.matched_pieces inside).append
  apply Piece.Matched.append
  · exact Piece.matched_defaultClause inside c.default
  · unfold notNullPieces
    split
    · exact .plain Piece.plain_space (.plain (Piece.plain_word isWord_not)
        (.plain Piece.plain_space (.plain (Piece.plain_word isWord_null) .nil)))
    · exact .nil

theorem bounded_pieces : Piece.Bounded c.pieces := by
  have hq : Piece.Bounded [Piece.quotedName c.name] := Piece.bounded_singleton rfl
  have ht := hq.append c.sqlType.bounded_pieces [space]
  have hd : Piece.Bounded (Piece.quotedName c.name :: space :: c.sqlType.pieces ++
      c.defaultPieces) :=
    ht.append_defaultClause c.default
  rw [pieces, ← List.append_assoc, ← List.cons_append, ← List.cons_append]
  unfold notNullPieces
  split
  · have hn : Piece.Bounded [⟨.word, "NULL"⟩] := Piece.bounded_singleton rfl
    simpa using hd.append hn [space, ⟨.word, "NOT"⟩, space]
  · simpa using hd

end ColumnSpec

end Bindery

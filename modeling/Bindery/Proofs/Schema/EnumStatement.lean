import Bindery.Proofs.Catalog.Registration
import Bindery.Proofs.Fragment.Printing
import Bindery.Proofs.Schema.Joining
import Bindery.Proofs.Statement.Printing
import Bindery.Proofs.Token.Runs

namespace Bindery

open Text (Stops)
open Piece (symbol space literal)

/-- A name to be written: a word, or any text in double quotes. -/
inductive NameSpec where
  | word (text : Text) (isWord : IsWord text)
  | quoted (text : Text)

namespace NameSpec

def text : NameSpec → Text
  | word text _ => text
  | quoted text => text

def piece : NameSpec → Piece
  | word text _ => ⟨.word, text⟩
  | quoted text => .quotedName text

def print (n : NameSpec) : Text :=
  n.piece.text

theorem kind_piece (n : NameSpec) :
    n.piece.kind = .word ∨ n.piece.kind = .quotedIdentifier := by
  cases n with
  | word => exact .inl rfl
  | quoted => exact .inr rfl

theorem isCode_piece (n : NameSpec) : n.piece.isCode = true := by
  cases n <;> rfl

theorem spells_piece (n : NameSpec) {rest : Text} (hr : Breaks rest) :
    Spells n.piece.kind n.piece.text rest := by
  cases n with
  | word text isWord => exact isWord.spells hr
  | quoted text => exact spells_quotedName text hr

theorem stops_print (n : NameSpec) (rest : Text) : Stops Text.isBlank (n.print ++ rest) := by
  cases n with
  | word text isWord => exact stops_blank_append isWord.ne_nil isWord.not_blank rest
  | quoted text => exact Text.stops_cons.mpr (by decide)

theorem isIdentifier_piece (n : NameSpec) (offset : Nat) (position : Position) :
    Token.isIdentifier ⟨n.piece.kind, n.piece.text, offset, position⟩ = true := by
  cases n <;> rfl

theorem name_piece (n : NameSpec) (offset : Nat) (position : Position) :
    Token.name ⟨n.piece.kind, n.piece.text, offset, position⟩ = n.text := by
  cases n with
  | word text _ => rfl
  | quoted text => exact unquote_inQuotes '"' text

end NameSpec

/-- An enum type to be written, with white space after each comma between its labels. -/
structure EnumSpec where
  name : NameSpec
  labels : List Text
  gap : Text := []
  gap_blank : ∀ c ∈ gap, Text.isBlank c = true := by simp

namespace EnumSpec

variable (e : EnumSpec)

def type : EnumType :=
  ⟨e.name.text, e.labels⟩

/-- The statement, with each label in single quotes. -/
def print : Text :=
  "CREATE TYPE " ++ (e.name.print ++ (" AS ENUM (" ++
    (Text.join (',' :: e.gap) (e.labels.map (Text.inQuotes '\'')) ++ ")")))

def separator : List Piece :=
  symbol ',' :: if e.gap.isEmpty then [] else [⟨.whitespace, e.gap⟩]

def labelPieces : List Piece :=
  e.separator.intercalate (e.labels.map fun label => [literal label])

def headPieces : List Piece :=
  [⟨.word, "CREATE"⟩, space, ⟨.word, "TYPE"⟩, space, e.name.piece, space, ⟨.word, "AS"⟩, space,
    ⟨.word, "ENUM"⟩, space]

def pieces : List Piece :=
  e.headPieces ++ symbol '(' :: (e.labelPieces ++ [symbol ')'])

theorem print_separator : Piece.print e.separator = ',' :: e.gap := by
  unfold separator
  split
  · rename_i h
    rw [List.isEmpty_iff.mp h]
    rfl
  · simp [symbol]

theorem print_headPieces :
    Piece.print e.headPieces = "CREATE TYPE " ++ (e.name.print ++ " AS ENUM ") := rfl

theorem print_labelPieces :
    Piece.print e.labelPieces =
      Text.join (',' :: e.gap) (e.labels.map (Text.inQuotes '\'')) := by
  rw [labelPieces, Piece.print_intercalate, print_separator, List.map_map]
  congr 2
  funext label
  exact List.append_nil _

theorem print_pieces : Piece.print e.pieces = e.print := by
  have hl (labels : Text) : " AS ENUM " ++ ((symbol '(').text ++
      (labels ++ Piece.print [symbol ')'])) = (" AS ENUM (" : Text) ++ (labels ++ ")") := rfl
  calc Piece.print e.pieces
    _ = "CREATE TYPE " ++ (e.name.print ++ (" AS ENUM " ++ ((symbol '(').text ++
          (Piece.print e.labelPieces ++ Piece.print [symbol ')'])))) := by
      rw [pieces, Piece.print_append, Piece.print_cons, Piece.print_append, print_headPieces,
        List.append_assoc, List.append_assoc]
    _ = e.print := by
      rw [hl, print_labelPieces]
      exact rfl

theorem spelled_separator {rest : Text} (hr : Stops Text.isBlank rest) :
    Piece.Spelled rest e.separator := by
  refine ⟨spells_mark (by decide) _, ?_⟩
  split
  · trivial
  · rename_i hg
    obtain ⟨c, t, ht⟩ := List.exists_cons_of_ne_nil (fun h => hg (List.isEmpty_iff.mpr h))
    refine ⟨?_, trivial⟩
    have hb := e.gap_blank
    rw [ht] at hb
    simp only [ht]
    exact .whitespace (hb c (by simp)) (fun d hd => hb d (by simp [hd])) hr

theorem spelled_labelPieces {rest : Text} (hr : Breaks rest) :
    Piece.Spelled rest e.labelPieces := by
  apply Piece.spelled_intercalate (P := Breaks) (Q := Stops Text.isBlank) _ _ _ _ hr
  · intro x hx rest hr
    obtain ⟨label, -, rfl⟩ := List.mem_map.mp hx
    exact ⟨spells_literal label hr, trivial⟩
  · exact fun rest hr => e.spelled_separator hr
  · intro x hx rest
    obtain ⟨label, -, rfl⟩ := List.mem_map.mp hx
    exact Text.stops_cons.mpr (by decide)
  · exact fun rest => breaks_cons (by decide) _

theorem spelled_headPieces {rest : Text} (hr : Stops Text.isBlank rest) :
    Piece.Spelled rest e.headPieces := by
  have hb (t : Text) : Breaks (' ' :: t) := breaks_cons (by decide) t
  have hw {w : Text} (h : IsWord w) (t : Text) : Stops Text.isBlank (w ++ t) :=
    stops_blank_append h.ne_nil h.not_blank t
  have hn (ps : List Piece) (t : Text) :
      Stops Text.isBlank (Piece.print (e.name.piece :: ps) ++ t) := by
    rw [Piece.print_cons, List.append_assoc]
    exact e.name.stops_print _
  have hcreate : IsWord "CREATE".toList := isWord_of_all (by decide) (by decide)
  have htype : IsWord "TYPE".toList := isWord_of_all (by decide) (by decide)
  have has : IsWord "AS".toList := isWord_of_all (by decide) (by decide)
  have henum : IsWord "ENUM".toList := isWord_of_all (by decide) (by decide)
  exact ⟨hcreate.spells (hb _), spells_space (hw htype _), htype.spells (hb _),
    spells_space (hn _ _), e.name.spells_piece (hb _), spells_space (hw has _),
    has.spells (hb _), spells_space (hw henum _), henum.spells (hb _), spells_space hr, trivial⟩

theorem spelled_pieces : Piece.Spelled [] e.pieces := by
  rw [pieces, Piece.spelled_append]
  refine ⟨e.spelled_headPieces (Text.stops_cons.mpr (by decide)), spells_mark (by decide) _, ?_⟩
  rw [Piece.spelled_append]
  exact ⟨e.spelled_labelPieces (breaks_cons (by decide) _), spells_mark (by decide) _, trivial⟩

theorem bounded_pieces : Piece.Bounded e.pieces :=
  ⟨⟨_, _, rfl, rfl⟩,
    ⟨e.headPieces ++ symbol '(' :: e.labelPieces, symbol ')', by simp [pieces], rfl⟩⟩

/-- Between the parentheses stand commas, white space and strings. -/
theorem labelPieces_cases {p : Piece} (h : p ∈ e.labelPieces) :
    p = symbol ',' ∨ p.kind = .whitespace ∨ p.kind = .string := by
  rcases Piece.mem_intercalate h with h | ⟨x, hx, h⟩
  · rcases List.mem_cons.mp h with h | h
    · exact .inl h
    · split at h
      · cases h
      · exact .inr (.inl (by rw [List.mem_singleton.mp h]))
  · obtain ⟨label, -, rfl⟩ := List.mem_map.mp hx
    exact .inr (.inr (by rw [List.mem_singleton.mp h]; rfl))

theorem headPieces_cases {p : Piece} (h : p ∈ e.headPieces) :
    p.kind = .word ∨ p.kind = .quotedIdentifier ∨ p.kind = .whitespace := by
  have hn := e.name.kind_piece
  simp only [headPieces, List.mem_cons, List.not_mem_nil, or_false] at h
  grind [space]

theorem isSymbol_labelTokens {offset : Nat} {position : Position} {t : Token}
    (h : t ∈ Piece.place offset position e.labelPieces) {c : Char} (hc : c ≠ ',') :
    t.isSymbol c = false := by
  obtain ⟨p, hp, hk, ht⟩ := Piece.exists_piece_of_mem_place h
  rcases e.labelPieces_cases hp with rfl | hp | hp
  · simp [Token.isSymbol, ht, symbol, Ne.symm hc]
  · simp [Token.isSymbol, hk, hp]
  · simp [Token.isSymbol, hk, hp]

theorem isSymbol_headTokens {offset : Nat} {position : Position} {t : Token}
    (h : t ∈ Piece.place offset position e.headPieces) (c : Char) : t.isSymbol c = false := by
  obtain ⟨p, hp, hk, -⟩ := Piece.exists_piece_of_mem_place h
  rcases e.headPieces_cases hp with hp | hp | hp <;> simp [Token.isSymbol, hk, hp]

theorem balanced_place (offset : Nat) (position : Position) :
    Balanced Token.isSymbol '(' ')' (Piece.place offset position e.pieces) := by
  rw [balanced_parens_iff, pieces, Piece.place_append, depthAfter?_append,
    depthAfter?_of_not_bracket 0 fun t ht =>
      ⟨e.isSymbol_headTokens ht '(', e.isSymbol_headTokens ht ')'⟩]
  simp only [Option.bind_some, Piece.place, symbol, depthAfter?, Piece.isSymbol_symbol]
  rw [if_pos (by decide), Piece.place_append, depthAfter?_append,
    depthAfter?_of_not_bracket _ fun t ht =>
      ⟨e.isSymbol_labelTokens ht (by decide), e.isSymbol_labelTokens ht (by decide)⟩]
  simp [Piece.place, depthAfter?, Piece.isSymbol_symbol]

theorem no_semicolon {t : Token} (h : t ∈ Piece.place 0 .start e.pieces) :
    t.isSymbol ';' = false := by
  rw [pieces, Piece.place_append, List.mem_append, Piece.place, List.mem_cons, Piece.place_append,
    List.mem_append] at h
  rcases h with h | rfl | h | h
  · exact e.isSymbol_headTokens h ';'
  · rfl
  · exact e.isSymbol_labelTokens h (by decide)
  · rw [List.mem_singleton.mp h]
    rfl

theorem no_comment {p : Piece} (h : p ∈ e.pieces) : p.kind ≠ .comment := by
  simp only [pieces, List.mem_append, List.mem_cons, List.not_mem_nil, or_false] at h
  rcases h with h | rfl | h | rfl
  · rcases e.headPieces_cases h with h | h | h <;> simp [h]
  · decide
  · rcases e.labelPieces_cases h with rfl | h | h
    · decide
    · simp [h]
    · simp [h]
  · decide

/-- The written text is one statement, whatever the labels hold. -/
theorem segment_print : ∃ doc, segment e.print = .ok [⟨e.print, .start, doc⟩] := by
  rw [← e.print_pieces]
  exact Bindery.segment_print e.spelled_pieces e.bounded_pieces (fun _ => e.no_comment)
    (fun _ => e.no_semicolon) (e.balanced_place 0 .start)

theorem stringValues_separator (offset : Nat) (position : Position) :
    (Piece.placeCode offset position e.separator).filterMap Token.stringValue? = [] := by
  rw [List.filterMap_eq_nil_iff]
  intro t ht
  obtain ⟨p, hp, hk, -⟩ := Piece.exists_piece_of_mem_place (List.mem_filter.mp ht).1
  have hs : p.kind ≠ .string := by
    rcases List.mem_cons.mp hp with rfl | hp
    · decide
    · split at hp
      · cases hp
      · simp [List.mem_singleton.mp hp]
  simp [Token.stringValue?, hk, hs]

theorem stringValues_labelPieces (offset : Nat) (position : Position) :
    (Piece.placeCode offset position e.labelPieces).filterMap Token.stringValue? = e.labels := by
  have hl (label : Text) (offset : Nat) (position : Position) :
      (Piece.placeCode offset position [literal label]).filterMap Token.stringValue? =
        [label] := by
    rw [Piece.placeCode_cons_code rfl, List.filterMap_cons_some]
    · rfl
    · rw [Token.stringValue?, if_pos ⟨rfl, rfl⟩]
      exact congrArg some (unquote_inQuotes '\'' label)
  unfold labelPieces
  generalize e.labels = labels
  induction labels generalizing offset position with
  | nil => rfl
  | cons label labels ih =>
    cases labels with
    | nil =>
      rw [List.map_singleton, List.intercalate_singleton]
      exact hl label offset position
    | cons next labels =>
      simp only [List.map_cons] at ih ⊢
      rw [List.intercalate_cons_cons, Piece.placeCode_append, Piece.placeCode_append,
        List.filterMap_append, List.filterMap_append, hl, stringValues_separator, ih]
      rfl

end EnumSpec

/-- A name, `AS ENUM` and a list without parentheses inside declare the strings of the list. -/
theorem Declaration.ofType_enum (s : Statement) {name as enum opening closing : Token}
    {run : List Token} (hn : name.isIdentifier = true) (ha : as.isKeyword "AS" = true)
    (he : enum.isKeyword "ENUM" = true) (ho : opening.isSymbol '(' = true)
    (hr : ∀ u ∈ run, u.isSymbol '(' = false ∧ u.isSymbol ')' = false)
    (hc : closing.isSymbol ')' = true) :
    ofType s (name :: as :: enum :: opening :: (run ++ [closing])) =
      .ok (.enum ⟨name.name, run.filterMap Token.stringValue?⟩) := by
  have hw : as.kind = .word := by
    simp only [Token.isKeyword, Bool.and_eq_true, beq_iff_eq] at ha
    exact ha.1
  have hd : as.isSymbol '.' = false := by simp [Token.isSymbol, hw]
  have hname : objectName s (name :: as :: enum :: opening :: (run ++ [closing])) =
      .ok (name.name, as :: enum :: opening :: (run ++ [closing])) := by
    simp [objectName, Run.qualifiedName?, Run.spelledName, hn, hd, Text.join,
      List.intercalate_singleton]
  have hlist := Run.parenthesized_eq s.text opening (depthAfter?_of_not_bracket 0 hr) hc []
  rw [ofType, hname]
  change (if !as.isKeyword "AS" then _ else _) = _
  rw [if_neg (by rw [ha]; decide)]
  rw [if_pos he, ofEnum, if_neg (by simp [ho]), hlist]
  rfl

theorem SymbolTable.entries_register_empty {α : Type} [Entry α] (entry : α) :
    (register {} entry).1.entries = [entry] := by
  have hr := register_spec {} entry
  generalize register {} entry = result at hr ⊢
  cases hr with
  | found h => cases h
  | adopted _ _ h => cases h
  | fresh _ _ h => exact h

/-- An enum type is declared, and no other class or function comes of the schema. -/
structure Schema.OnlyEnum (s : Schema) (enum : EnumType) : Prop where
  enums : s.catalog.enums.entries = [enum]
  tables : s.catalog.tables = {}
  composites : s.catalog.composites = {}
  functions : s.functions = []

namespace EnumSpec

variable (e : EnumSpec)

theorem ofStatement_print (position : Position) (doc : Option Text) :
    Declaration.ofStatement ⟨e.print, position, doc⟩ = .ok (.enum e.type) := by
  have ht := significantTokens_print e.spelled_pieces position
  rw [e.print_pieces, pieces, Piece.placeCode_append, Piece.placeCode_cons_code rfl,
    Piece.placeCode_append, Piece.placeCode_cons_code rfl, headPieces,
    Piece.placeCode_cons_code rfl, Piece.placeCode_cons_trivia rfl,
    Piece.placeCode_cons_code rfl, Piece.placeCode_cons_trivia rfl,
    Piece.placeCode_cons_code e.name.isCode_piece, Piece.placeCode_cons_trivia rfl,
    Piece.placeCode_cons_code rfl, Piece.placeCode_cons_trivia rfl,
    Piece.placeCode_cons_code rfl, Piece.placeCode_cons_trivia rfl] at ht
  rw [Declaration.ofStatement, ht]
  refine (Declaration.ofType_enum _ (e.name.isIdentifier_piece _ _) rfl rfl rfl ?_ rfl).trans ?_
  · intro u hu
    have hu := (List.mem_filter.mp hu).1
    exact ⟨e.isSymbol_labelTokens hu (by decide), e.isSymbol_labelTokens hu (by decide)⟩
  · rw [e.name.name_piece, stringValues_labelPieces]
    rfl

theorem parse_print : ∃ s, Schema.parse e.print none = .ok s ∧ s.OnlyEnum e.type := by
  obtain ⟨doc, hd⟩ := e.segment_print
  have hm : [(⟨e.print, .start, doc⟩ : Statement)].mapM Declaration.ofStatement =
      .ok [.enum e.type] := by
    rw [List.mapM_cons, ofStatement_print]
    rfl
  refine ⟨⟨(Catalog.declareAll {} [.enum e.type]).1, [], (Catalog.declareAll {} [.enum e.type]).2⟩,
    ?_, SymbolTable.entries_register_empty e.type, rfl, rfl, rfl⟩
  rw [Schema.parse_none, hd]
  change [(⟨e.print, .start, doc⟩ : Statement)].mapM Declaration.ofStatement >>= _ = _
  rw [hm]
  rfl

end EnumSpec

end Bindery

import Bindery.Proofs.Column.Clauses
import Bindery.Proofs.Column.Writing

namespace Bindery

namespace Item

theorem ofTokens?_quoted {first : Token} (h : first.kind = .quotedIdentifier) (source : Text)
    (rest : List Token) :
    ofTokens? source (first :: rest) = (column? source (first :: rest)).map .column := by
  have hk (keyword : Text) : first.isKeyword keyword = false := by simp [Token.isKeyword, h]
  have hc : isTableConstraint (first :: rest) = false := by
    cases rest with
    | nil => rfl
    | cons next rest => simp [isTableConstraint, Token.isAnyKeyword, hk]
  simp [ofTokens?, hk, hc]

theorem column?_eq {source : Text} {first : Token} {sqlType clauses : List Token}
    (hf : first.isIdentifier = true) (hn : sqlType ≠ [])
    (ht : ∀ t ∈ sqlType, t.isAnyKeyword typeEnds = false) (hd : Run.depth 0 sqlType = 0)
    (hc : Run.topIndex (·.isAnyKeyword typeEnds) 0 0 clauses = 0) :
    column? source (first :: (sqlType ++ clauses)) =
      some (readClauses source 0 clauses
        ⟨first.name, Run.typeText source sqlType, true, none⟩) := by
  have hk : Run.topIndex (·.isAnyKeyword typeEnds) 0 0 (sqlType ++ clauses) = sqlType.length := by
    rw [Run.topIndex_append ht, hd, Nat.zero_sub, hc, Nat.add_zero]
  have hl : sqlType.length ≠ 0 := by simpa using hn
  simp [column?, hk, hf, hl]

end Item

theorem TypeSpec.not_typeEnd (t : TypeSpec) {offset : Nat} {position : Position} :
    ∀ u ∈ Piece.placeCode offset position t.pieces, u.isAnyKeyword Item.typeEnds = false := by
  intro u hu
  obtain ⟨p, hp, hk, hx⟩ := Piece.exists_piece_of_mem_place (List.mem_of_mem_filter hu)
  rw [Token.isAnyKeyword, List.any_eq_false]
  intro keyword hm
  rw [Token.isKeyword, hk, hx, Bool.and_eq_true, not_and, beq_iff_eq]
  intro hw
  obtain ⟨w, he⟩ := t.exists_word_of_mem_pieces hp hw
  rw [he, w.not_end keyword hm]
  decide

namespace ColumnSpec

open Piece (space)

variable (c : ColumnSpec)

theorem topIndex_notNull {ends : List Text} (h : "NOT".toList ∈ ends) (offset : Nat)
    (position : Position) :
    Run.topIndex (·.isAnyKeyword ends) 0 0
      (Piece.placeCode offset position c.notNullPieces) = 0 := by
  unfold notNullPieces
  split
  · exact Run.topIndex_of_stop (by simp) (List.any_eq_true.mpr ⟨_, h, rfl⟩) _
  · rfl

theorem readClauses_notNull (source name sqlType : Text) (default : Option Text) (offset : Nat)
    (position : Position) :
    Item.readClauses source 0 (Piece.placeCode offset position c.notNullPieces)
      ⟨name, sqlType, true, default⟩ = ⟨name, sqlType, !c.notNull, default⟩ := by
  unfold notNullPieces
  cases c.notNull with
  | false =>
    change Item.readClauses source 0 [] _ = _
    rw [Item.readClauses]
    rfl
  | true =>
    change Item.readClauses source 0 [⟨.word, "NOT", _, _⟩, ⟨.word, "NULL", _, _⟩] _ = _
    rw [Item.readClauses, if_pos (by rfl), List.drop_one, List.tail_cons, Item.readClauses]
    rfl

theorem readClauses_default (source name sqlType : Text) {offset : Nat} {position : Position}
    {value : Token} (hv : value.kind = .string) {rest : List Token}
    (hr : Run.topIndex (·.isAnyKeyword Item.defaultEnds) 0 0 rest = 0) :
    Item.readClauses source 0 (⟨.word, "DEFAULT", offset, position⟩ :: value :: rest)
        ⟨name, sqlType, true, none⟩ =
      Item.readClauses source 0 rest ⟨name, sqlType, true, some (Run.covered source [value])⟩ := by
  have hs : value.kind ≠ .symbol := by simp [hv]
  have hk : Run.topIndex (·.isAnyKeyword Item.defaultEnds) 0 1 (value :: rest) = 1 := by
    simp [Run.topIndex, Token.opensNesting, Token.closesNesting, Token.isSymbol, hs, hr]
  have hn : Token.isKeyword ⟨.word, "DEFAULT", offset, position⟩ "NOT" = false := rfl
  have hp : Token.isKeyword ⟨.word, "DEFAULT", offset, position⟩ "PRIMARY" = false := rfl
  have hd : Token.isKeyword ⟨.word, "DEFAULT", offset, position⟩ "DEFAULT" = true := rfl
  rw [Item.readClauses, hn, hp, hd]
  simp only [hk, Bool.false_and, Bool.false_eq_true, if_false, if_true, List.take_succ_cons,
    List.take_zero, List.drop_succ_cons, List.drop_zero, List.isEmpty_cons,
    Run.depth_singleton hs]

theorem readClauses_clauses (before name sqlType : Text) (position : Position) :
    Item.readClauses (before ++ Piece.print (c.defaultPieces ++ c.notNullPieces)) 0
        (Piece.placeCode before.byteSize position (c.defaultPieces ++ c.notNullPieces))
        ⟨name, sqlType, true, none⟩ =
      ⟨name, sqlType, !c.notNull, c.default.map (Text.inQuotes '\'')⟩ := by
  rw [Piece.print_append, Piece.placeCode_append, defaultPieces]
  cases c.default with
  | none => exact c.readClauses_notNull _ _ _ _ _ _
  | some value =>
    have hb : Piece.Bounded [Piece.literal value] := Piece.bounded_singleton rfl
    have hv := hb.covered_eq (before ++ " DEFAULT ") (Piece.print c.notNullPieces)
      (position.advance " DEFAULT ")
    have hs : before ++ (Piece.print [space, ⟨.word, "DEFAULT"⟩, space, Piece.literal value] ++
        Piece.print c.notNullPieces) = (before ++ " DEFAULT ") ++
          (Piece.print [Piece.literal value] ++ Piece.print c.notNullPieces) := by
      simp [space]
    rw [Text.byteSize_append, ← hs] at hv
    refine (readClauses_default _ name sqlType rfl (c.topIndex_notNull (by decide) _ _)).trans ?_
    rw [c.readClauses_notNull]
    exact congrArg (fun v => (⟨name, sqlType, !c.notNull, some v⟩ : Column))
      (hv.trans (List.append_nil _))

theorem topIndex_clauses (offset : Nat) (position : Position) :
    Run.topIndex (·.isAnyKeyword Item.typeEnds) 0 0
      (Piece.placeCode offset position (c.defaultPieces ++ c.notNullPieces)) = 0 := by
  rw [defaultPieces]
  cases c.default with
  | none => exact c.topIndex_notNull (by decide) _ _
  | some value => exact Run.topIndex_of_stop (by simp) rfl _

theorem ofTokens?_pieces (origin : Position) :
    Item.ofTokens? c.print (Piece.placeCode 0 origin c.pieces) = some (.column c.column) := by
  generalize hl : Text.inQuotes '"' c.name ++ " " = lead
  have hs : c.print = lead ++ (Piece.print c.sqlType.pieces ++
      Piece.print (c.defaultPieces ++ c.notNullPieces)) := by
    rw [← print_pieces, pieces, ← hl]
    simp [Piece.quotedName, space]
  have hp : Piece.placeCode 0 origin c.pieces =
      ⟨.quotedIdentifier, Text.inQuotes '"' c.name, 0, origin⟩ ::
        (Piece.placeCode lead.byteSize (origin.advance lead) c.sqlType.pieces ++
          Piece.placeCode (lead ++ Piece.print c.sqlType.pieces).byteSize
            (origin.advance (lead ++ Piece.print c.sqlType.pieces))
            (c.defaultPieces ++ c.notNullPieces)) := by
    rw [pieces, Piece.placeCode_cons_code rfl, Piece.placeCode_cons_trivia rfl,
      Piece.placeCode_append, ← hl]
    simp [Text.byteSize_append, Text.byteSize, Position.advance_append, Nat.add_assoc,
      Piece.quotedName, space]
  have hn : Piece.placeCode lead.byteSize (origin.advance lead) c.sqlType.pieces ≠ [] := by
    obtain ⟨p, ps, hp, hc⟩ := c.sqlType.bounded_pieces.first
    rw [hp, Piece.placeCode_cons_code hc]
    simp
  have ht : Run.typeText c.print
      (Piece.placeCode lead.byteSize (origin.advance lead) c.sqlType.pieces) = c.sqlType.print := by
    rw [Run.typeText, hs, c.sqlType.bounded_pieces.covered_eq, TypeSpec.print_pieces]
    exact c.sqlType.spaced_print.singleSpaced_eq
  rw [hp, Item.ofTokens?_quoted rfl, Item.column?_eq rfl hn c.sqlType.not_typeEnd
    ((c.sqlType.matched_pieces false).depth_eq _ _ 0) (c.topIndex_clauses _ _), ht, hs,
    ← List.append_assoc, c.readClauses_clauses]
  have hname : Token.name ⟨.quotedIdentifier, Text.inQuotes '"' c.name, 0, origin⟩ = c.name :=
    unquote_inQuotes '"' c.name
  rw [hname]
  rfl

theorem item?_print (position : Position) :
    Fragment.item? ⟨c.print, position⟩ = .ok (some (.column c.column)) := by
  rw [Fragment.item?, ← print_pieces, significantTokens_print (c.spelled_pieces breaks_nil),
    print_pieces]
  exact congrArg Except.ok (c.ofTokens?_pieces position)

end ColumnSpec

namespace ColumnList

theorem spelled_list (specs : List ColumnSpec) :
    Piece.Spelled [] (Piece.separator.intercalate (specs.map ColumnSpec.pieces)) := by
  apply Piece.spelled_separated _ _ breaks_nil
  · intro x hx rest hr
    obtain ⟨c, -, rfl⟩ := List.mem_map.mp hx
    exact c.spelled_pieces hr
  · intro x hx rest
    obtain ⟨c, -, rfl⟩ := List.mem_map.mp hx
    exact Text.stops_cons.mpr (by decide)

theorem mapM_item?_print {specs : List ColumnSpec} {fragments : List Fragment}
    (h : fragments.map Fragment.text = specs.map ColumnSpec.print) :
    (fragments.mapM fun f => do
      let item ← f.item?
      return (f, item)) =
        .ok (fragments.zip (specs.map fun c => some (.column c.column))) := by
  induction fragments generalizing specs with
  | nil => rfl
  | cons f fragments ih =>
    cases specs with
    | nil => cases h
    | cons c specs =>
      obtain ⟨hf, hs⟩ := List.cons.inj h
      have hi : f.item? = .ok (some (.column c.column)) := by
        have hi := c.item?_print f.position
        rw [← hf] at hi
        exact hi
      rw [List.mapM_cons, hi, ih hs]
      rfl

theorem filterMap_columns {g : Fragment × Option Item → Option Column}
    (hg : ∀ f c, g (f, some (.column c)) = some c) {fragments : List Fragment}
    {columns : List Column} (h : fragments.length = columns.length) :
    (fragments.zip (columns.map fun c => some (.column c))).filterMap g = columns := by
  induction fragments generalizing columns with
  | nil =>
    cases columns with
    | nil => rfl
    | cons c columns => cases h
  | cons f fragments ih =>
    cases columns with
    | nil => cases h
    | cons c columns =>
      rw [List.map_cons, List.zip_cons_cons, List.filterMap_cons, hg, ih (Nat.succ.inj h)]

theorem ofItems_columns {fragments : List Fragment} {columns : List Column}
    (h : fragments.length = columns.length) :
    ofItems (fragments.zip (columns.map fun c => some (.column c))) = ⟨columns, []⟩ := by
  have hm : ∀ x ∈ fragments.zip (columns.map fun c => some (Item.column c)),
      ∃ f c, x = (f, some (.column c)) := by
    rintro ⟨f, item⟩ hx
    obtain ⟨c, -, rfl⟩ := List.mem_map.mp (List.of_mem_zip hx).2
    exact ⟨f, c, rfl⟩
  unfold ofItems
  rw [filterMap_columns (fun _ _ => rfl) h, List.flatMap_eq_nil_iff.mpr,
    List.filterMap_eq_nil_iff.mpr]
  · simp
  · intro x hx
    obtain ⟨f, c, rfl⟩ := hm x hx
    rfl
  · intro x hx
    obtain ⟨f, c, rfl⟩ := hm x hx
    rfl

/--
Columns that are written one after the other are read back as these columns from every place:
the names, the types, the nullability and the defaults as they were written, and nothing is skipped.
-/
theorem parse_join_print (specs : List ColumnSpec) (origin : Position) :
    parse (Text.join ", " (specs.map ColumnSpec.print)) origin =
      .ok ⟨specs.map ColumnSpec.column, []⟩ := by
  have hp : (specs.map ColumnSpec.pieces).map Piece.print = specs.map ColumnSpec.print := by
    rw [List.map_map]
    exact List.map_congr_left fun c _ => c.print_pieces
  have hl : Text.join ", " (specs.map ColumnSpec.print) =
      Piece.print (Piece.separator.intercalate (specs.map ColumnSpec.pieces)) := by
    rw [Piece.print_intercalate, hp]
    rfl
  have hs := spelled_list specs
  obtain ⟨fragments, hf, ht⟩ := splitTopLevel_print hs
    (by
      intro inside x hx
      obtain ⟨c, -, rfl⟩ := List.mem_map.mp hx
      exact c.matched_pieces inside)
    (by
      intro x hx
      obtain ⟨c, -, rfl⟩ := List.mem_map.mp hx
      exact c.bounded_pieces.tight (c.spelled_pieces breaks_nil)) origin
  rw [hp] at ht
  have hc : fragments.length = (specs.map ColumnSpec.column).length := by
    simpa using congrArg List.length ht
  have hi := ofItems_columns hc
  rw [List.map_map] at hi
  rw [parse, hl, hf]
  refine (congrArg (· >>= fun items => Except.ok (ofItems items)) (mapM_item?_print ht)).trans ?_
  exact congrArg Except.ok hi

/-- A name with a quote and a comma, a type with a modifier, a default that looks like a list. -/
def priceColumn : ColumnSpec where
  name := "a\", b"
  sqlType := ⟨⟨"numeric", isWord_of_all (by decide) (by decide), by decide⟩, [],
    some ⟨[⟨"10", isDigits_of_all (by decide) (by decide)⟩,
      ⟨"2", isDigits_of_all (by decide) (by decide)⟩], true⟩, 1⟩
  default := some "it's, (".toList
  notNull := true

/-- A name like a constraint and a type of two words. -/
def checkColumn : ColumnSpec where
  name := "CHECK"
  sqlType := ⟨⟨"double", isWord_of_all (by decide) (by decide), by decide⟩,
    [⟨"precision", isWord_of_all (by decide) (by decide), by decide⟩], none, 0⟩
  default := none
  notNull := false

theorem parse_join_print_two :
    parse ("\"a\"\", b\" numeric(10, 2)[] DEFAULT 'it''s, (' NOT NULL, " ++
      "\"CHECK\" double precision") ⟨3, 7⟩ =
        .ok ⟨[⟨"a\", b", "numeric(10, 2)[]", false, some "'it''s, ('".toList⟩,
          ⟨"CHECK", "double precision", true, none⟩], []⟩ :=
  parse_join_print [priceColumn, checkColumn] ⟨3, 7⟩

end ColumnList

end Bindery

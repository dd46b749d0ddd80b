import Bindery.Proofs.Column.Checks

namespace Bindery

/-- Values and generation clauses begin outside parentheses only. -/
def Item.outside : Nat → Bool :=
  (· == 0)

namespace Site

/-- Whether a token completes a clause outside parentheses that forbids null: `NOT NULL`,
`PRIMARY KEY` or `GENERATED ... AS IDENTITY`. -/
def declares (s : Site) : Bool :=
  s.depth == 0 && match s.zone with
    | .clauses before =>
      s.token.isKeyword "NULL" && before.sameIgnoringCase "NOT" ||
        s.token.isKeyword "KEY" && before.sameIgnoringCase "PRIMARY"
    | .generated before => s.token.isKeyword "IDENTITY" && before.sameIgnoringCase "AS"
    | .value _ => false

/-- Whether a token does nothing that it should not do: inside of parentheses it begins no clause,
and it takes `AS` for a generation clause to be that of an identity. -/
def isOrderly (s : Site) : Bool :=
  match s.zone with
  | .clauses _ => s.depth == 0 || !(s.marks || s.token.isAnyKeyword ["DEFAULT", "GENERATED"])
  | .generated _ => !s.marks || s.declares
  | .value _ => true

def keyFollows : List Site → Bool
  | [] => true
  | s :: rest =>
    (!(s.zone.isClauses && s.token.isKeyword "PRIMARY") ||
      rest.head?.any (·.token.isKeyword "KEY")) && keyFollows rest

/-- What an orderly token forbids it declares, unless `PRIMARY` waits for its `KEY`. -/
theorem declares_of_marks {s : Site} (ho : s.isOrderly = true) (hm : s.marks = true) :
    s.declares = true ∨
      s.depth = 0 ∧ s.zone.isClauses = true ∧ s.token.isKeyword "PRIMARY" = true := by
  obtain ⟨t, d, z⟩ := s
  cases z with
  | clauses before =>
    have hd : d = 0 := by
      rcases Bool.or_eq_true_iff.mp ho with hd | hn
      · exact beq_iff_eq.mp hd
      · rw [hm, Bool.true_or] at hn
        cases hn
    subst hd
    rcases Bool.or_eq_true_iff.mp hm with hp | hn
    · exact .inr ⟨rfl, rfl, hp⟩
    · exact .inl (Bool.or_eq_true_iff.mpr (.inl hn))
  | value => cases hm
  | generated before =>
    rcases Bool.or_eq_true_iff.mp ho with hn | hd
    · rw [hm] at hn
      cases hn
    · exact .inl hd

theorem marks_of_primary {s : Site} (hz : s.zone.isClauses = true)
    (hp : s.token.isKeyword "PRIMARY" = true) : s.marks = true := by
  obtain ⟨t, d, z⟩ := s
  cases z with
  | clauses before => exact Bool.or_eq_true_iff.mpr (.inl hp)
  | value => cases hz
  | generated => cases hz

theorem marks_of_declares {s : Site} (hd : s.declares = true) :
    s.marks = true ∨
      ∃ before, s.zone = .clauses before ∧ before.sameIgnoringCase "PRIMARY" = true := by
  obtain ⟨t, d, z⟩ := s
  have hz := (Bool.and_eq_true_iff.mp hd).2
  cases z with
  | clauses before =>
    rcases Bool.or_eq_true_iff.mp hz with hn | hk
    · exact .inl (Bool.or_eq_true_iff.mpr (.inr hn))
    · exact .inr ⟨before, rfl, (Bool.and_eq_true_iff.mp hk).2⟩
  | value => cases hz
  | generated before => exact .inl (Bool.and_eq_true_iff.mp hz).1

end Site

namespace Zone

theorem eq_of_enter {z : Zone} {d : Nat} {t : Token} {before : Text}
    (h : z.enter d t = .clauses before) (hn : before ≠ []) : z = .clauses before := by
  rw [enter] at h
  split at h
  · cases h
    exact absurd rfl hn
  · exact h

/-- Clauses go on behind a token of them only, with its word before what follows. -/
theorem eq_of_leave {opens : Nat → Bool} {z : Zone} {d : Nat} {t : Token} {before : Text}
    (h : z.leave opens d t = .clauses before) : z.isClauses = true ∧ before = t.word := by
  cases z with
  | clauses =>
    rw [leave] at h
    split at h
    · cases h
    · split at h
      · cases h
      · cases h
        exact ⟨rfl, rfl⟩
  | value => cases h
  | generated => cases h

end Zone

namespace Standing

open Item (everywhere outside)

theorem next_of_isOrderly {st : Standing} {t : Token} (h : (st.site t).isOrderly = true) :
    st.next everywhere t = st.next outside t := by
  rw [next, next]
  unfold site at h
  generalize st.zone.enter st.depth t = zone at h ⊢
  cases zone with
  | clauses before =>
    rcases Bool.or_eq_true_iff.mp h with hd | hn
    · have hd : st.depth = 0 := beq_iff_eq.mp hd
      rw [hd]
      rfl
    · have hk := (Bool.or_eq_false_iff.mp (Bool.not_eq_true' _ ▸ hn)).2
      rw [Token.isAnyKeyword, List.any_eq_false] at hk
      have hd := eq_false_of_ne_true (hk "DEFAULT".toList (by simp))
      have hg := eq_false_of_ne_true (hk "GENERATED".toList (by simp))
      rw [Zone.leave_other hd hg, Zone.leave_other hd hg]
  | value => rfl
  | generated => rfl

/-- Where nothing begins inside of parentheses, it makes no difference that it could. -/
theorem sites_outside {st : Standing} {tokens : List Token}
    (h : (st.sites outside tokens).all Site.isOrderly = true) :
    st.sites everywhere tokens = st.sites outside tokens := by
  induction tokens generalizing st with
  | nil => rfl
  | cons t rest ih =>
    rw [sites, List.all_cons, Bool.and_eq_true] at h
    rw [sites, sites, next_of_isOrderly h.1, ih h.2]

theorem next_of_primary {st : Standing} {t : Token} (hd : st.depth = 0)
    (hz : (st.zone.enter st.depth t).isClauses = true) (ht : t.isKeyword "PRIMARY" = true) :
    st.next outside t = ⟨0, .clauses t.word⟩ := by
  rw [next]
  generalize st.zone.enter st.depth t = zone at hz ⊢
  cases zone with
  | clauses before =>
    rw [hd, Run.depth_of_keyword ht, Zone.leave_other (Token.isKeyword_of_other ht (by decide))
      (Token.isKeyword_of_other ht (by decide))]
  | value => cases hz
  | generated => cases hz

theorem any_declares_of_marks {st : Standing} {tokens : List Token}
    (h : (st.sites outside tokens).all Site.isOrderly = true)
    (hk : Site.keyFollows (st.sites outside tokens) = true)
    (hm : (st.sites outside tokens).any Site.marks = true) :
    (st.sites outside tokens).any Site.declares = true := by
  induction tokens generalizing st with
  | nil => cases hm
  | cons t rest ih =>
    rw [sites, List.all_cons, Bool.and_eq_true] at h
    rw [sites, Site.keyFollows, Bool.and_eq_true] at hk
    rw [sites, List.any_cons, Bool.or_eq_true] at hm ⊢
    rcases hm with hm | hm
    · rcases Site.declares_of_marks h.1 hm with hd | ⟨hd, hz, hp⟩
      · exact .inl hd
      · right
        have hw : t.word.sameIgnoringCase "PRIMARY" = true := by
          rwa [← Token.isKeyword_eq (by decide)]
        have hu := hk.1
        rw [hz, hp, next_of_primary hd hz hp] at hu
        rw [next_of_primary hd hz hp]
        cases rest with
        | nil => cases hu
        | cons u rest =>
          have hu : u.isKeyword "KEY" = true := hu
          rw [sites_clauses, List.any_cons, Bool.or_eq_true]
          left
          simp only [Site.declares, hu, hw, Bool.and_self, Bool.or_true, beq_self_eq_true]
    · exact .inr (ih h.2 hk.2 hm)

theorem any_marks_of_declares {st : Standing} {tokens : List Token}
    (hd : (st.sites outside tokens).any Site.declares = true) :
    (st.sites outside tokens).any Site.marks = true ∨
      ∃ before, st.zone = .clauses before ∧ before.sameIgnoringCase "PRIMARY" = true := by
  have hn {before : Text} (h : before.sameIgnoringCase "PRIMARY" = true) : before ≠ [] := by
    rintro rfl
    cases h
  induction tokens generalizing st with
  | nil => cases hd
  | cons t rest ih =>
    rw [sites, List.any_cons, Bool.or_eq_true] at hd ⊢
    rcases hd with hd | hd
    · rcases Site.marks_of_declares hd with hm | ⟨before, hz, hp⟩
      · exact .inl (.inl hm)
      · exact .inr ⟨before, Zone.eq_of_enter hz (hn hp), hp⟩
    · rcases ih hd with hm | ⟨before, hz, hp⟩
      · exact .inl (.inr hm)
      · obtain ⟨hc, rfl⟩ := Zone.eq_of_leave hz
        rw [← Token.isKeyword_eq (by decide)] at hp
        exact .inl (.inl (Site.marks_of_primary hc hp))

/-- In an orderly definition, a clause forbids null exactly if one declares it. -/
theorem any_marks_eq {tokens : List Token}
    (h : (sites outside {} tokens).all Site.isOrderly = true)
    (hk : Site.keyFollows (sites outside {} tokens) = true) :
    (sites everywhere {} tokens).any Site.marks = (sites outside {} tokens).any Site.declares := by
  rw [sites_outside h, Bool.eq_iff_iff]
  constructor
  · exact any_declares_of_marks h hk
  · intro hd
    rcases any_marks_of_declares hd with hm | ⟨before, hz, hp⟩
    · exact hm
    · cases hz
      cases hp

end Standing

namespace Definition

/-- Whether a clause makes the column non-nullable, wherever in the definition it stands. -/
def isMarked (d : Definition) : Bool :=
  (Item.clauseSites Item.everywhere d.tokens).any Site.marks

/-- Whether the definition has a clause that forbids null behind its type, outside parentheses and
outside the values of defaults. -/
def declaresNotNull (d : Definition) : Bool :=
  (Item.clauseSites Item.outside d.tokens).any Site.declares

/-- Whether nothing inside of parentheses would be taken for a clause, and every clause is
complete. -/
def isOrderly (d : Definition) : Bool :=
  (Item.clauseSites Item.outside d.tokens).all Site.isOrderly &&
    Site.keyFollows (Item.clauseSites Item.outside d.tokens)

def isPrimaryKey (d : Definition) : Bool :=
  Item.isKey d.tokens && (Item.constraintTokens d.tokens).tail.head?.any (·.isKeyword "KEY")

/-- How many tokens behind the first parenthesis stand in the list that it opens. -/
def keyLength (d : Definition) : Nat :=
  (Run.closingIndex? 0 (Item.keyTail d.tokens)).getD (Item.keyTail d.tokens).length

/-- The tokens in the first parentheses of a primary key. -/
def keyList (d : Definition) : List Token :=
  (Item.keyTail d.tokens).take d.keyLength

/-- Whether a definition that is taken for a primary key is one, and names the column nowhere behind
its list. -/
def isOrderlyKey (name : Text) (d : Definition) : Bool :=
  !Item.isKey d.tokens ||
    d.isPrimaryKey && !Run.names name ((Item.keyTail d.tokens).drop d.keyLength)

theorem nullable_column (d : Definition) : d.column.nullable = false ↔ d.isMarked = true := by
  change (true && !d.isMarked) = false ↔ _
  rw [Bool.true_and, Bool.not_eq_false']

theorem isMarked_eq {d : Definition} (h : d.isOrderly = true) : d.isMarked = d.declaresNotNull := by
  obtain ⟨ho, hk⟩ := Bool.and_eq_true_iff.mp h
  exact Standing.any_marks_eq ho hk

theorem exists_keyName_iff {d : Definition} {name : Text} :
    (∃ key ∈ d.keyNames, Text.sameIgnoringCase key name = true) ↔
      Item.isKey d.tokens = true ∧ Run.names name (Item.keyTail d.tokens) = true := by
  rw [keyNames]
  split
  · rename_i hk
    rw [and_iff_right hk, Run.names, List.any_eq_true]
    constructor
    · rintro ⟨_, hm, hn⟩
      obtain ⟨t, ht, rfl⟩ := List.mem_map.mp hm
      obtain ⟨ht, hi⟩ := List.mem_filter.mp ht
      exact ⟨t, ht, Bool.and_eq_true_iff.mpr ⟨hi, hn⟩⟩
    · rintro ⟨t, ht, hn⟩
      obtain ⟨hi, hn⟩ := Bool.and_eq_true_iff.mp hn
      exact ⟨t.name, List.mem_map_of_mem (List.mem_filter.mpr ⟨ht, hi⟩), hn⟩
  · rename_i hk
    constructor
    · rintro ⟨_, hm, -⟩
      cases hm
    · rintro ⟨h, -⟩
      exact absurd h hk

theorem names_keyTail_iff {d : Definition} {name : Text} (h : d.isOrderlyKey name = true) :
    Item.isKey d.tokens = true ∧ Run.names name (Item.keyTail d.tokens) = true ↔
      d.isPrimaryKey = true ∧ Run.names name d.keyList = true := by
  have ha : Run.names name (Item.keyTail d.tokens) = (Run.names name d.keyList ||
      Run.names name ((Item.keyTail d.tokens).drop d.keyLength)) := by
    rw [Run.names, Run.names, Run.names, keyList, ← List.any_append, List.take_append_drop]
  rcases Bool.or_eq_true_iff.mp h with hk | hk
  · rw [Bool.not_eq_true'] at hk
    rw [isPrimaryKey, hk]
    simp
  · obtain ⟨hp, hn⟩ := Bool.and_eq_true_iff.mp hk
    rw [Bool.not_eq_true'] at hn
    rw [ha, hn, Bool.or_false, and_iff_right hp,
      and_iff_right (Bool.and_eq_true_iff.mp hp).1]

end Definition

namespace ColumnList

open Piece

/-- A column of a list cannot be null if its clauses or a primary key of the list say so. -/
theorem nullable_ofDefinitions (ds : List Definition) :
    List.Forall₂ (fun d c => c.nullable = false ↔
        d.isMarked = true ∨ ∃ k ∈ ds, Item.isKey k.tokens = true ∧
          Run.names c.name (Item.keyTail k.tokens) = true)
      (ds.filter fun d => Item.isColumn d.tokens) (ofDefinitions ds).columns := by
  rw [columns_ofDefinitions, List.forall₂_map_right_iff, List.forall₂_same]
  intro d _
  have hn : (d.column.underKeys (ds.flatMap Definition.keyNames)).name = d.column.name := by
    rw [Column.underKeys]
    split <;> rfl
  rw [Column.nullable_underKeys, d.nullable_column, hn]
  simp only [← Definition.exists_keyName_iff, List.mem_flatMap]
  constructor
  · rintro (hm | ⟨key, ⟨k, hk, hkey⟩, he⟩)
    · exact .inl hm
    · exact .inr ⟨k, hk, key, hkey, he⟩
  · rintro (hm | ⟨k, hk, key, hkey, he⟩)
    · exact .inl hm
    · exact .inr ⟨key, ⟨k, hk, hkey⟩, he⟩

/--
A column of a list that is read is non-nullable exactly if one of its clauses forbids null, be it
inside of parentheses, or if a primary key of the list names it, be it behind its first parentheses.
If nothing inside of parentheses would be taken for a clause and the primary keys name the column
nowhere else, these are the clauses outside parentheses and defaults and the lists of the primary
keys. What stands in the parentheses of a check can then be exchanged, with the same list as result.
-/
theorem parse_nullable_iff {body : Text} {origin : Position} {list : ColumnList}
    (h : parse body origin = .ok list) :
    (∃ ds, definitions body origin = .ok ds ∧
      List.Forall₂ (fun d c =>
          (c.nullable = false ↔ d.isMarked = true ∨ ∃ k ∈ ds, Item.isKey k.tokens = true ∧
            Run.names c.name (Item.keyTail k.tokens) = true) ∧
          (d.isOrderly = true → (∀ k ∈ ds, k.isOrderlyKey c.name = true) →
            (c.nullable = false ↔ d.declaresNotNull = true ∨
              ∃ k ∈ ds, k.isPrimaryKey = true ∧ Run.names c.name k.keyList = true)))
        (ds.filter fun d => Item.isColumn d.tokens) list.columns) ∧
    ∀ (front back inner other : List Piece) (lead trail : Text) (pre post : List Text),
      HasCheck front back → FillsCheck front back inner → FillsCheck front back other →
      (∀ c ∈ lead ++ trail, Text.isBlank c = true) →
      Fragment.cut origin (snippet body) origin {} body =
        .ok (pre ++ (lead ++ (print (withCheck front inner back) ++ trail)) :: post) →
      parse (Text.join [','] (pre ++
        (lead ++ (print (withCheck front other back) ++ trail)) :: post)) origin = .ok list := by
  constructor
  · rw [parse_eq] at h
    obtain ⟨ds, hd, rfl⟩ := map_eq_ok_iff.mp h
    refine ⟨ds, hd, (nullable_ofDefinitions ds).imp ?_⟩
    intro d c hn
    refine ⟨hn, ?_⟩
    intro ho hk
    rw [hn, Definition.isMarked_eq ho]
    apply or_congr_right
    apply exists_congr
    intro k
    apply and_congr_right
    exact fun hm => Definition.names_keyTail_iff (hk k hm)
  · intro front back inner other lead trail pre post hc hi ho hb hcut
    exact parse_exchange h hc hi ho (fun c hm => hb c (List.mem_append_left _ hm))
      (fun c hm => hb c (List.mem_append_right _ hm)) ((cuts_iff_cut _ _ _).mpr hcut)

theorem parse_nullable_iff_of_check :
    ∃ list, parse "a text CHECK (a <> 'x') NOT NULL, b int, PRIMARY KEY (b)".toList .start =
        .ok list ∧
      list.columns.map (fun c => (c.name, c.nullable)) =
        [("a".toList, false), ("b".toList, false)] ∧
      (∃ ds, definitions "a text CHECK (a <> 'x') NOT NULL, b int, PRIMARY KEY (b)".toList .start =
          .ok ds ∧
        List.Forall₂ (fun d c => c.nullable = false ↔ d.declaresNotNull = true ∨
            ∃ k ∈ ds, k.isPrimaryKey = true ∧ Run.names c.name k.keyList = true)
          (ds.filter fun d => Item.isColumn d.tokens) list.columns) ∧
      parse "a text CHECK (length(a) > 0) NOT NULL, b int, PRIMARY KEY (b)".toList .start =
        .ok list := by
  have hp : ((parse "a text CHECK (a <> 'x') NOT NULL, b int, PRIMARY KEY (b)".toList
      .start).toOption.map fun l => l.columns.map fun c => (c.name, c.nullable)) =
        some [("a".toList, false), ("b".toList, false)] := by
    decide +kernel
  obtain ⟨list, hl, hn⟩ := Option.map_eq_some_iff.mp hp
  have hl := eq_ok_of_toOption hl
  have hd : ((definitions "a text CHECK (a <> 'x') NOT NULL, b int, PRIMARY KEY (b)".toList
      .start).toOption.map fun ds => ds.all fun d =>
        d.isOrderly && d.isOrderlyKey "a" && d.isOrderlyKey "b") = some true := by
    decide +kernel
  obtain ⟨ds, hds, ho⟩ := Option.map_eq_some_iff.mp hd
  have hds := eq_ok_of_toOption hds
  obtain ⟨⟨_, hds', hiff⟩, hexchange⟩ := parse_nullable_iff hl
  rw [hds] at hds'
  cases hds'
  refine ⟨list, hl, hn, ⟨ds, hds, ?_⟩, ?_⟩
  · have hall := List.all_eq_true.mp ho
    simp only [Bool.and_eq_true] at hall
    have hname : ∀ c ∈ list.columns, c.name = "a".toList ∨ c.name = "b".toList := by
      intro c hc
      have hm := List.mem_map_of_mem (f := fun c : Column => (c.name, c.nullable)) hc
      rw [hn] at hm
      simp only [List.mem_cons, List.not_mem_nil, or_false, Prod.mk.injEq] at hm
      exact hm.imp And.left And.left
    have hc := (List.forall₂_and_left (p := fun d : Definition => d ∈ ds) _ _).mpr
      ⟨fun d hd => List.mem_of_mem_filter hd, hiff⟩
    have hb := (List.forall₂_and_left (p := fun c : Column => c ∈ list.columns) _ _).mpr
      ⟨fun c hc => hc, hc.flip⟩
    refine hb.flip.imp ?_
    rintro d c ⟨hcol, hdef, -, hdecl⟩
    apply hdecl (hall d hdef).1.1
    intro k hk
    rcases hname c hcol with he | he
    · rw [he]
      exact (hall k hk).1.2
    · rw [he]
      exact (hall k hk).2
  · have hm {ps : List Piece} (h : ({} : Nesting).after? isMark ps = some {}) :=
      (Nesting.bracketsMatch_iff isMark_unambiguous).mpr h
    exact hexchange [⟨.word, "a"⟩, space, ⟨.word, "text"⟩, space, ⟨.word, "CHECK"⟩, space]
      [space, ⟨.word, "NOT"⟩, space, ⟨.word, "NULL"⟩]
      [⟨.word, "a"⟩, space, symbol '<', symbol '>', space, literal "x"]
      [⟨.word, "length"⟩, symbol '(', ⟨.word, "a"⟩, symbol ')', space, symbol '>', space,
        ⟨.number, "0"⟩] [] [] [] [" b int".toList, " PRIMARY KEY (b)".toList]
      ⟨by decide +kernel, regular_of_all (by decide +kernel), ⟨_, _, rfl, rfl⟩, by decide +kernel⟩
      ⟨spelled_of_tokenize .start (eq_ok_of_toOption (by decide +kernel)),
        regular_of_all (by decide +kernel), hm (by decide +kernel), by decide +kernel⟩
      ⟨spelled_of_tokenize .start (eq_ok_of_toOption (by decide +kernel)),
        regular_of_all (by decide +kernel), hm (by decide +kernel), by decide +kernel⟩
      (by simp) (eq_ok_of_toOption (by decide +kernel))

/-- A check makes a column non-nullable, and so does a name behind the list of a primary key. -/
theorem parse_nullable_of_check :
    (definitions "a int CHECK (a IS NOT NULL OR b > 0)".toList .start).toOption.map
        (fun ds => ds.any fun d => d.declaresNotNull || d.isPrimaryKey) = some false ∧
      (parse "a int CHECK (a IS NOT NULL OR b > 0)".toList .start).toOption.map
        (fun list => list.columns.map Column.nullable) = some [false] ∧
      (parse "a int CHECK (a > 0 OR b > 0)".toList .start).toOption.map
        (fun list => list.columns.map Column.nullable) = some [true] ∧
      (definitions "a int, b int, PRIMARY KEY (a) INCLUDE (b)".toList .start).toOption.map
        (fun ds => ds.any fun d => d.declaresNotNull || d.isPrimaryKey && Run.names "b" d.keyList) =
          some false ∧
      (parse "a int, b int, PRIMARY KEY (a) INCLUDE (b)".toList .start).toOption.map
        (fun list => list.columns.map Column.nullable) = some [false, false] := by
  decide +kernel

end ColumnList

end Bindery

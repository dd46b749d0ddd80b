import Bindery.Proofs.Column.Definition
import Bindery.Proofs.Fragment.Whole
import Bindery.Proofs.Token.Runs

namespace Bindery

section Places

/-- A token stands `n` bytes behind another one that is written alike. -/
structure Token.Behind (n : Nat) (t u : Token) : Prop extends t.SpeltAs u where
  offset : t.offset = n + u.offset

theorem Token.Behind.stop {n : Nat} {t u : Token} (h : t.Behind n u) : t.stop = n + u.stop := by
  rw [Token.stop, Token.stop, h.offset, h.text, Nat.add_assoc]

theorem Run.covered_behind {before source : Text} {ts us : List Token}
    (h : List.Forall₂ (Token.Behind before.byteSize) ts us) :
    covered (before ++ source) ts = covered source us := by
  have hm (f : Token → Nat) :
      us.map (fun u => before.byteSize + f u) = (us.map f).map (before.byteSize + ·) := by
    rw [List.map_map]
    rfl
  rw [covered_eq, covered_eq, map_eq_of_forall₂ h fun _ _ ht => ht.offset,
    map_eq_of_forall₂ h fun _ _ ht => ht.stop, hm, hm, List.head?_map, List.getLast?_map]
  cases (us.map Token.offset).head? with
  | none => rfl
  | some start =>
    cases (us.map Token.stop).getLast? with
    | none => rfl
    | some stop => exact Text.between_append_right before source start stop

namespace Piece

theorem place_behind (n offset : Nat) (p q : Position) (ps : List Piece) :
    List.Forall₂ (Token.Behind n) (place (n + offset) p ps) (place offset q ps) := by
  induction ps generalizing offset p q with
  | nil => exact .nil
  | cons x ps ih =>
    rw [place, place, Nat.add_assoc]
    exact .cons ⟨⟨rfl, rfl⟩, rfl⟩ (ih _ _ _)

theorem placeCode_behind (n : Nat) (p : Position) (ps : List Piece) :
    List.Forall₂ (Token.Behind n) (placeCode n p ps) (placeCode 0 .start ps) := by
  apply List.rel_filter
  · intro t u h
    simp only [Token.isTrivia, h.kind]
  · exact place_behind n 0 p .start ps

theorem place_inside (before : Text) (position : Position) (ps : List Piece) :
    ∀ t ∈ place before.byteSize position ps, t.Inside (before ++ print ps) := by
  induction ps generalizing before position with
  | nil => exact fun _ ht => nomatch ht
  | cons p ps ih =>
    intro t ht
    rcases List.mem_cons.mp ht with rfl | ht
    · refine ⟨⟨before, _, rfl, rfl⟩, ?_⟩
      rw [Token.stop, print_cons, Text.byteSize_append, Text.byteSize_append]
      exact Nat.add_le_add_left (Nat.le_add_right _ _) _
    · rw [← Text.byteSize_append] at ht
      have hi := ih _ _ t ht
      rwa [List.append_assoc, ← print_cons] at hi

end Piece

end Places

namespace Run

/-- The word before what follows a run, if `before` stands before the run. -/
def lastWord (before : Text) (tokens : List Token) : Text :=
  tokens.foldl (fun _ t => t.word) before

/-- No token of a run behind the word `before` would be taken for a clause. -/
def isQuiet : (before : Text) → List Token → Bool
  | _, [] => true
  | before, t :: rest =>
    !t.isAnyKeyword ["PRIMARY", "DEFAULT", "GENERATED"] &&
      !(t.isKeyword "NULL" && before.sameIgnoringCase "NOT") && isQuiet t.word rest

theorem isQuiet_append (before : Text) (run rest : List Token) :
    isQuiet before (run ++ rest) = (isQuiet before run && isQuiet (lastWord before run) rest) := by
  induction run generalizing before with
  | nil => rfl
  | cons t run ih =>
    rw [List.cons_append, isQuiet, ih, isQuiet, Bool.and_assoc _ _ (isQuiet _ rest)]
    rfl

theorem isQuiet_cons {before : Text} {t : Token} {rest : List Token}
    (h : isQuiet before (t :: rest) = true) :
    (∀ keyword ∈ ["PRIMARY".toList, "DEFAULT".toList, "GENERATED".toList],
        t.isKeyword keyword = false) ∧
      (t.isKeyword "NULL" = true → before.sameIgnoringCase "NOT" = false) ∧
      isQuiet t.word rest = true := by
  rw [isQuiet, Bool.and_eq_true, Bool.and_eq_true, Bool.not_eq_true', Bool.not_eq_true',
    Bool.and_eq_false_imp, Token.isAnyKeyword, List.any_eq_false] at h
  exact ⟨fun keyword hk => eq_false_of_ne_true (h.1.1 keyword hk), h.1.2, h.2⟩

theorem isQuiet_spelt {ts us : List Token} (h : List.Forall₂ Token.SpeltAs ts us) (before : Text) :
    isQuiet before ts = isQuiet before us := by
  induction h generalizing before with
  | nil => rfl
  | cons ht _ ih =>
    have hp := ht.congr (f := (·.isAnyKeyword ["PRIMARY", "DEFAULT", "GENERATED"])) fun _ _ _ => rfl
    have hn := ht.congr (f := (·.isKeyword "NULL")) fun _ _ _ => rfl
    have hw := ht.congr (f := Token.word) fun _ _ _ => rfl
    rw [isQuiet, isQuiet, hp, hn, hw, ih]

theorem isQuiet_symbol {t : Token} (h : t.kind = .symbol) (before : Text) :
    isQuiet before [t] = true := by
  have hk (keyword : Text) : t.isKeyword keyword = false := by simp [Token.isKeyword, h]
  rw [isQuiet, Token.isAnyKeyword_of_symbol h, hk]
  rfl

end Run

namespace Standing

open Item (everywhere)

/-- A quiet run among the clauses says nothing and leaves them going on. -/
theorem sites_quiet {before : Text} {tokens : List Token} (h : Run.isQuiet before tokens = true)
    (d : Nat) :
    (sites everywhere ⟨d, .clauses before⟩ tokens).any Site.marks = false ∧
      Site.values (sites everywhere ⟨d, .clauses before⟩ tokens) = [] ∧
      tokens.foldl (next everywhere) ⟨d, .clauses before⟩ =
        ⟨Run.depth d tokens, .clauses (Run.lastWord before tokens)⟩ := by
  induction tokens generalizing before d with
  | nil => exact ⟨rfl, rfl, rfl⟩
  | cons t rest ih =>
    obtain ⟨hk, hn, hr⟩ := Run.isQuiet_cons h
    have hl := Zone.leave_other (hk "DEFAULT".toList (by simp)) (hk "GENERATED".toList (by simp))
      everywhere d before
    have hs : next everywhere ⟨d, .clauses before⟩ t = ⟨Run.depth d [t], .clauses t.word⟩ := by
      rw [next, Zone.enter_clauses, hl]
    obtain ⟨hmarks, hvalues, hfold⟩ := ih hr (Run.depth d [t])
    rw [sites_clauses, hl]
    refine ⟨?_, ?_, ?_⟩
    · rw [List.any_cons, hmarks, Site.marks_other (hk "PRIMARY".toList (by simp)) hn]
      rfl
    · rw [Site.values, if_neg (by simp), hvalues]
    · rw [List.foldl_cons, hs, hfold]
      rfl

theorem foldl_of_getLast? {opens : Nat → Bool} {st : Standing} {tokens : List Token} {s : Site}
    (h : (st.sites opens tokens).getLast? = some s) :
    tokens.foldl (next opens) st =
      ⟨Run.depth s.depth [s.token], s.zone.leave opens s.depth s.token⟩ := by
  rcases List.eq_nil_or_concat tokens with rfl | ⟨front, t, rfl⟩
  · cases h
  · rw [List.concat_eq_append, sites_append, sites, sites, List.getLast?_append] at h
    cases h
    rw [List.concat_eq_append, List.foldl_append]
    rfl

end Standing

namespace Run

theorem depth_of_after? {d e : Nesting} {tokens : List Token}
    (h : d.after? Token.isSymbol tokens = some e) (n : Nat) :
    depth (n + d.parens + d.brackets) tokens = n + e.parens + e.brackets := by
  obtain ⟨hp, -, hk⟩ := (Nesting.after?_eq_some_iff Token.isSymbol_unambiguous).mp h
  exact depth_of_depthAfter? hp hk n

theorem depth_filter_code (n : Nat) (tokens : List Token) :
    depth n (tokens.filter fun t => !t.isTrivia) = depth n tokens := by
  induction tokens generalizing n with
  | nil => rfl
  | cons t rest ih =>
    rw [← List.singleton_append (x := t) (l := rest), depth_append, ← ih]
    cases ht : t.isTrivia with
    | true =>
      have hk : t.kind ≠ .symbol := by
        intro hk
        simp [Token.isTrivia, hk] at ht
      rw [List.singleton_append, List.filter_cons_of_neg (by simp [ht]), depth_singleton hk]
    | false =>
      rw [List.singleton_append, List.filter_cons_of_pos (by simp [ht]), ← List.singleton_append,
        depth_append]

end Run

theorem Piece.depth_placeCode {ps : List Piece} (h : BracketsMatch isMark ps) (offset : Nat)
    (position : Position) (n : Nat) : Run.depth n (placeCode offset position ps) = n := by
  have ha := (Nesting.bracketsMatch_iff isMark_unambiguous).mp h
  rw [← after?_place offset position] at ha
  rw [placeCode, Run.depth_filter_code]
  exact Run.depth_of_after? ha n

namespace Item

/-- Whether a definition is that of a column and ends with the keyword of a check, which stands
among the clauses and outside parentheses. -/
def endsInCheck (tokens : List Token) : Bool :=
  isColumn tokens && (clauseSites everywhere tokens).getLast?.any fun s =>
    s.token.isKeyword "CHECK" && s.depth == 0 && s.zone.isClauses

theorem topIndex_append_of_lt {stop : Token → Bool} {run : List Token} {d skip : Nat}
    (h : Run.topIndex stop d skip run < run.length) (rest : List Token) :
    Run.topIndex stop d skip (run ++ rest) = Run.topIndex stop d skip run := by
  induction run generalizing d skip with
  | nil => exact absurd h (Nat.not_lt_zero _)
  | cons t run ih =>
    rw [Run.topIndex, List.length_cons] at h
    rw [List.cons_append, Run.topIndex, Run.topIndex]
    split at h
    · rename_i ho
      rw [if_pos ho, if_pos ho, ih (Nat.lt_of_succ_lt_succ h)]
    · rename_i ho
      rw [if_neg ho, if_neg ho]
      split at h
      · rename_i hc
        rw [if_pos hc, if_pos hc, ih (Nat.lt_of_succ_lt_succ h)]
      · rename_i hc
        rw [if_neg hc, if_neg hc]
        split at h
        · rename_i hs
          rw [if_pos hs, if_pos hs]
        · rename_i hs
          rw [if_neg hs, if_neg hs, ih (Nat.lt_of_succ_lt_succ h)]

section Longer

variable {tokens : List Token} (h : clauseTokens tokens ≠ [])

include h

theorem typeLength_lt : typeLength tokens < tokens.tail.length := by
  by_contra hn
  exact h (List.drop_eq_nil_of_le (Nat.le_of_not_lt hn))

theorem ne_nil_of_clauses : tokens ≠ [] := by
  rintro rfl
  exact h rfl

theorem head?_append (rest : List Token) : (tokens ++ rest).head? = tokens.head? :=
  List.head?_append_of_ne_nil tokens (ne_nil_of_clauses h)

theorem tail_append (rest : List Token) : (tokens ++ rest).tail = tokens.tail ++ rest :=
  List.tail_append_of_ne_nil (ne_nil_of_clauses h)

theorem typeLength_append (rest : List Token) :
    typeLength (tokens ++ rest) = typeLength tokens := by
  rw [typeLength, tail_append h]
  exact topIndex_append_of_lt (typeLength_lt h) rest

theorem clauseTokens_append (rest : List Token) :
    clauseTokens (tokens ++ rest) = clauseTokens tokens ++ rest := by
  rw [clauseTokens, typeLength_append h, tail_append h,
    List.drop_append_of_le_length (Nat.le_of_lt (typeLength_lt h)), clauseTokens]

theorem bare_append (source : Text) (rest : List Token) :
    bare source (tokens ++ rest) = bare source tokens := by
  rw [bare, typeLength_append h, tail_append h, head?_append h,
    List.take_append_of_le_length (Nat.le_of_lt (typeLength_lt h)), bare]

/-- A column has a name, a type and a clause, so that its first three tokens are there. -/
theorem isTableConstraint_append (hn : typeLength tokens ≠ 0) (rest : List Token) :
    isTableConstraint (tokens ++ rest) = isTableConstraint tokens := by
  have hl := typeLength_lt h
  rw [List.length_tail] at hl
  rcases tokens with _ | ⟨a, _ | ⟨b, _ | ⟨c, more⟩⟩⟩
  · exact absurd hl (Nat.not_lt_zero _)
  · exact absurd hl (Nat.not_lt_zero _)
  · exact absurd (Nat.lt_one_iff.mp hl) hn
  · rfl

theorem isColumn_append (hc : isColumn tokens = true) (rest : List Token) :
    isColumn (tokens ++ rest) = true := by
  simp only [isColumn, Bool.and_eq_true, Bool.not_eq_true', bne_iff_ne] at hc ⊢
  obtain ⟨⟨⟨hk, hm⟩, ht⟩, hi, hn⟩ := hc
  have hm' : isNamed (tokens ++ rest) = false := by rw [isNamed, head?_append h, ← isNamed, hm]
  have hk' : isKey (tokens ++ rest) = false := by
    rw [isKey, constraintTokens, hm] at hk
    rw [isKey, constraintTokens, hm']
    exact (congrArg _ (head?_append h rest)).trans hk
  refine ⟨⟨⟨hk', hm'⟩, ?_⟩, ?_, ?_⟩
  · rw [isTableConstraint_append h hn, ht]
  · rw [head?_append h, hi]
  · rw [typeLength_append h]
    exact hn

end Longer

end Item

namespace Item

/-- Behind the keyword of a check the clauses go on outside parentheses. -/
theorem foldl_of_endsInCheck {tokens : List Token} (h : endsInCheck tokens = true) :
    ∃ before, (clauseTokens tokens).foldl (Standing.next everywhere) {} = ⟨0, .clauses before⟩ := by
  obtain ⟨-, hl⟩ := Bool.and_eq_true_iff.mp h
  cases hs : (clauseSites everywhere tokens).getLast? with
  | none =>
    rw [hs] at hl
    cases hl
  | some s =>
    rw [hs, Option.any_some] at hl
    obtain ⟨token, depth, zone⟩ := s
    simp only [Bool.and_eq_true, beq_iff_eq] at hl
    obtain ⟨⟨hk, rfl⟩, hz⟩ := hl
    rw [Standing.foldl_of_getLast? hs]
    cases zone with
    | clauses before =>
      refine ⟨token.word, ?_⟩
      rw [Run.depth_of_keyword hk, Zone.leave_other (Token.isKeyword_of_other hk (by decide))
        (Token.isKeyword_of_other hk (by decide))]
    | value => cases hz
    | generated => cases hz

theorem clauses_of_endsInCheck {tokens : List Token} (h : endsInCheck tokens = true) :
    clauseTokens tokens ≠ [] := by
  intro hn
  obtain ⟨-, hl⟩ := Bool.and_eq_true_iff.mp h
  rw [clauseSites, hn] at hl
  cases hl

end Item

namespace Column

theorem reading_idle (c : Column) (source : Text) {sites : List Site}
    (hm : sites.any Site.marks = false) (hv : Site.values sites = []) :
    c.reading source sites = c := by
  simp [reading, hm, hv]

theorem reading_inside (c : Column) {source : Text} {tokens : List Token}
    (h : ∀ t ∈ tokens, t.Inside source) (more : Text) (st : Standing) :
    c.reading (source ++ more) (st.sites Item.everywhere tokens) =
      c.reading source (st.sites Item.everywhere tokens) := by
  have hr : List.Forall₂ (fun t u : Token => t = u ∧ t.Inside source) tokens tokens :=
    List.forall₂_same.mpr fun t ht => ⟨rfl, h t ht⟩
  have hs : ∀ t u : Token, t = u ∧ t.Inside source → t.SpeltAs u := by
    rintro t _ ⟨rfl, -⟩
    exact ⟨rfl, rfl⟩
  apply reading_rel hs _ (Standing.sites_rel hs Item.everywhere hr st)
  intro ts us hts
  have he : ts = us := List.forall₂_eq_eq_eq ▸ hts.imp fun _ _ h => h.1
  subst he
  exact Run.covered_inside (fun t ht => (List.forall₂_same.mp hts t ht).2) more

theorem reading_behind (c : Column) (before source : Text) {ts us : List Token}
    (h : List.Forall₂ (Token.Behind before.byteSize) ts us) (st : Standing) :
    c.reading (before ++ source) (st.sites Item.everywhere ts) =
      c.reading source (st.sites Item.everywhere us) := by
  have hs : ∀ t u : Token, t.Behind before.byteSize u → t.SpeltAs u := fun _ _ h => h.toSpeltAs
  apply reading_rel hs _ (Standing.sites_rel hs Item.everywhere h st)
  exact fun _ _ => Run.covered_behind

end Column

theorem Item.bare_inside {source : Text} {tokens : List Token} (h : ∀ t ∈ tokens, t.Inside source)
    (more : Text) : bare (source ++ more) tokens = bare source tokens := by
  rw [bare, bare, Run.typeText, Run.typeText, Run.covered_inside]
  exact fun t ht => h t (List.mem_of_mem_tail (List.mem_of_mem_take ht))

namespace Piece

def group (inner : List Piece) : List Piece :=
  symbol '(' :: (inner ++ [symbol ')'])

theorem placeCode_group (offset : Nat) (position : Position) (inner : List Piece) :
    ∃ o p o' p', placeCode offset position (group inner) =
      ⟨.symbol, ['('], offset, position⟩ ::
        (placeCode o p inner ++ [⟨.symbol, [')'], o', p'⟩]) := by
  have hg := placeCode_cons_code (p := symbol '(') rfl offset position (inner ++ [symbol ')'])
  rw [placeCode_append, placeCode_cons_code (p := symbol ')') rfl] at hg
  exact ⟨_, _, _, _, hg⟩

/-- Quiet pieces whose brackets match are quiet in parentheses, and nothing of them stays open. -/
theorem quiet_group {inner : List Piece} (hb : BracketsMatch isMark inner)
    (hq : Run.isQuiet [] (placeCode 0 .start inner) = true) (offset : Nat) (position : Position)
    (before : Text) :
    Run.isQuiet before (placeCode offset position (group inner)) = true ∧
      Run.depth 0 (placeCode offset position (group inner)) = 0 ∧
      Run.lastWord before (placeCode offset position (group inner)) = [] := by
  obtain ⟨o, p, o', p', hg⟩ := placeCode_group offset position inner
  have hs : List.Forall₂ Token.SpeltAs (placeCode o p inner) (placeCode 0 .start inner) :=
    (placeCode_behind o p inner).imp fun _ _ h => h.toSpeltAs
  rw [hg, ← List.singleton_append]
  refine ⟨?_, ?_, ?_⟩
  · rw [Run.isQuiet_append, Run.isQuiet_append, Run.isQuiet_symbol rfl, Run.isQuiet_symbol rfl,
      Bool.true_and, Bool.and_true]
    exact (Run.isQuiet_spelt hs []).trans hq
  · rw [Run.depth_append, Run.depth_append, depth_placeCode hb]
    rfl
  · rw [Run.lastWord, List.foldl_append, List.foldl_append]
    rfl

/-- A definition with a check: pieces up to its keyword, those in its parentheses and the others. -/
def withCheck (front inner back : List Piece) : List Piece :=
  front ++ (group inner ++ back)

/-- What a definition with a check gives without the check. -/
def columnAround (front back : List Piece) : Column :=
  ((Item.bare (print front) (placeCode 0 .start front)).reading (print front)
    (Item.clauseSites Item.everywhere (placeCode 0 .start front))).reading (print back)
      (Standing.sites Item.everywhere {} (placeCode 0 .start back))

/-- Pieces that may stand in the parentheses of a check: their brackets match, and none of them
would be taken for a clause. -/
structure FillsCheck (front back inner : List Piece) : Prop where
  spelled : Spelled [] (withCheck front inner back)
  regular : ∀ p ∈ inner, p.Regular
  balanced : BracketsMatch isMark inner
  quiet : Run.isQuiet [] (placeCode 0 .start inner) = true

theorem ofTokens?_withCheck {front back inner : List Piece}
    (hc : Item.endsInCheck (placeCode 0 .start front) = true) (hf : FillsCheck front back inner) :
    Item.ofTokens? (print (withCheck front inner back))
      (placeCode 0 .start (withCheck front inner back)) =
        some (.column (columnAround front back)) := by
  -- The clauses are read in three parts: those up to the check, the group, which says nothing, and
  -- the others, which begin as if nothing stood before them.
  have hn := Item.clauses_of_endsInCheck hc
  obtain ⟨before, hfold⟩ := Item.foldl_of_endsInCheck hc
  rw [Item.ofTokens?_eq_column_iff, withCheck, placeCode_append, placeCode_append]
  refine ⟨Item.isColumn_append hn (Bool.and_eq_true_iff.mp hc).1 _, ?_⟩
  have hi : ∀ t ∈ placeCode 0 .start front, t.Inside (print front) :=
    fun t ht => place_inside [] .start front t (List.mem_of_mem_filter ht)
  have hk : ∀ t ∈ Item.clauseTokens (placeCode 0 .start front), t.Inside (print front) :=
    fun t ht => hi t (List.mem_of_mem_tail (List.mem_of_mem_drop ht))
  obtain ⟨hq, hd, hw⟩ := quiet_group hf.balanced hf.quiet (0 + (print front).byteSize)
    (Position.start.advance (print front)) before
  obtain ⟨hm, hv, hgroup⟩ := Standing.sites_quiet hq 0
  have hb := placeCode_behind (print front ++ print (group inner)).byteSize
    ((Position.start.advance (print front)).advance (print (group inner))) back
  rw [Item.bare_append hn, Item.clauseSites, Item.clauseTokens_append hn, Standing.sites_append,
    hfold, Column.reading_append _ _ (Standing.head?_sites_clauses _ _ _ _),
    Standing.sites_append, hgroup, hd, hw,
    Column.reading_append _ _ (Standing.head?_sites_clauses _ _ _ _),
    Column.reading_idle _ _ hm hv, print_append, print_append, Column.reading_inside _ hk,
    Item.bare_inside hi, ← List.append_assoc, Nat.zero_add, ← Text.byteSize_append,
    Column.reading_behind _ _ _ hb]
  rfl

theorem item?_withCheck {front back inner : List Piece}
    (hc : Item.endsInCheck (placeCode 0 .start front) = true) (hf : FillsCheck front back inner)
    (p : Position) :
    Fragment.item? ⟨print (withCheck front inner back), p⟩ =
      .ok (some (.column (columnAround front back))) := by
  have hi : Fragment.item? ⟨print (withCheck front inner back), .start⟩ =
      .ok (some (.column (columnAround front back))) := by
    rw [Fragment.item?, significantTokens_print hf.spelled, ← ofTokens?_withCheck hc hf]
    rfl
  obtain ⟨_, hp, rfl⟩ := (Fragment.item?_alike (d := .anywhere)
    (f := ⟨print (withCheck front inner back), .start⟩)
    (g := ⟨print (withCheck front inner back), p⟩) ⟨rfl, trivial⟩).exists_ok hi
  exact hp

theorem uncut?_group {inner : List Piece} (h : BracketsMatch isMark inner) (d : Nesting) :
    d.uncut? isMark (group inner) = some d := by
  have ho : d.read? isMark (symbol '(') = some { d with parens := d.parens + 1 } := rfl
  rw [group, Nesting.uncut?, if_neg (by simp [isMark, symbol, Token.isSymbol]), ho,
    Option.bind_some, Nesting.uncut?_append,
    Nesting.uncut?_of_bracketsMatch isMark_unambiguous (Nat.succ_pos _) h, Option.bind_some]
  rfl

/-- A definition of a column up to the keyword of a check, and what follows the check. -/
structure HasCheck (front back : List Piece) : Prop where
  check : Item.endsInCheck (placeCode 0 .start front) = true
  regular : ∀ p ∈ front ++ back, p.Regular
  first : ∃ p ps, front = p :: ps ∧ p.isCode = true
  last : ∀ p ∈ back.getLast?, p.isCode = true

section Exchange

variable {front back inner : List Piece}

theorem HasCheck.bounded (h : HasCheck front back) (inner : List Piece) :
    Bounded (withCheck front inner back) := by
  obtain ⟨p, ps, rfl, hp⟩ := h.first
  refine ⟨⟨p, _, rfl, hp⟩, ?_⟩
  rcases List.eq_nil_or_concat back with rfl | ⟨qs, q, rfl⟩
  · exact ⟨p :: ps ++ symbol '(' :: inner, symbol ')', by simp [withCheck, group], rfl⟩
  · exact ⟨p :: ps ++ (group inner ++ qs), q, by simp [withCheck], h.last q (by simp)⟩

theorem regular_symbol (c : Char) : (symbol c).Regular :=
  ⟨(symbol_regular c 0 .start).1, (symbol_regular c 0 .start).2⟩

theorem HasCheck.whole_iff (h : HasCheck front back) (hf : FillsCheck front back inner)
    {lead trail : Text} (hl : ∀ c ∈ lead, Text.isBlank c = true)
    (ht : ∀ c ∈ trail, Text.isBlank c = true) :
    Whole (lead ++ (print (withCheck front inner back) ++ trail)) ↔
      ((({} : Nesting).uncut? isMark front).bind fun e => e.uncut? isMark back) = some {} := by
  have hr : ∀ p ∈ withCheck front inner back, p.Regular := by
    intro p hp
    simp only [withCheck, group, List.mem_append, List.mem_cons, List.not_mem_nil, or_false] at hp
    rcases hp with hp | (rfl | hp | rfl) | hp
    · exact h.regular p (List.mem_append_left _ hp)
    · exact regular_symbol _
    · exact hf.regular p hp
    · exact regular_symbol _
    · exact h.regular p (List.mem_append_right _ hp)
  rw [whole_print_iff hf.spelled hr hl ht, withCheck, Nesting.uncut?_append]
  simp only [Nesting.uncut?_append, uncut?_group hf.balanced, Option.bind_some]

end Exchange

end Piece

namespace ColumnList

open Piece

variable {front back inner other : List Piece} {lead trail : Text} {pre post : List Text}

/-- Two fragments that declare the same: they differ in their places, or both are understood. -/
def DeclareAlike (f g : Fragment) : Prop :=
  f.Alike .anywhere g ∨ ∃ item, f.item? = .ok (some item) ∧ g.item? = .ok (some item)

theorem parse_of_declareAlike {body body' : Text} {origin : Position} {fs gs : List Fragment}
    (hf : splitTopLevel body origin = .ok fs) (hg : splitTopLevel body' origin = .ok gs)
    (h : List.Forall₂ DeclareAlike fs gs) {list : ColumnList} (hp : parse body origin = .ok list) :
    parse body' origin = .ok list := by
  have ha : Agree .anywhere Eq (parse body origin) (parse body' origin) := by
    rw [parse, parse, hf, hg]
    apply (Agree.mapM (T := fun a b => a.2 = b.2 ∧ (a.2 = none → a.1.text = b.1.text)) h _).bind
    · intro items items' hi
      exact .ok (ofItems_rel hi)
    · rintro f g (hfg | ⟨item, hf, hg⟩)
      · apply (Fragment.item?_alike hfg).bind
        rintro item _ rfl
        exact .ok ⟨rfl, fun _ => hfg.text⟩
      · rw [hf, hg]
        refine .ok ⟨rfl, ?_⟩
        intro hn
        cases hn
  obtain ⟨_, hb, rfl⟩ := ha.exists_ok hp
  exact hb

theorem declareAlike_exchange (hc : HasCheck front back) (hi : FillsCheck front back inner)
    (ho : FillsCheck front back other) (hl : ∀ c ∈ lead, Text.isBlank c = true)
    (ht : ∀ c ∈ trail, Text.isBlank c = true) (origin : Position) :
    List.Forall₂ DeclareAlike
      (Fragment.ofPieces origin
        (pre ++ (lead ++ (print (withCheck front inner back) ++ trail)) :: post))
      (Fragment.ofPieces origin
        (pre ++ (lead ++ (print (withCheck front other back) ++ trail)) :: post)) := by
  have hd {fs gs : List Fragment} (h : List.Forall₂ (Fragment.Alike .anywhere) fs gs) :
      List.Forall₂ DeclareAlike fs gs := h.imp fun _ _ => .inl
  rw [Fragment.ofPieces_append, Fragment.ofPieces_append, Fragment.ofPieces_cons,
    Fragment.ofPieces_cons,
    Fragment.ofPiece?_tight ((hc.bounded inner).tight hi.spelled) hl ht,
    Fragment.ofPiece?_tight ((hc.bounded other).tight ho.spelled) hl ht]
  apply List.rel_append (hd (Fragment.ofPieces_alike (d := .anywhere) trivial pre))
  refine .cons ?_ (hd (Fragment.ofPieces_alike (d := .anywhere) trivial post))
  exact .inr ⟨_, item?_withCheck hc.check hi _, item?_withCheck hc.check ho _⟩

/-- The columns of a list do not depend on what stands in the parentheses of a check. -/
theorem parse_exchange {body : Text} {origin : Position} {list : ColumnList}
    (h : parse body origin = .ok list) (hc : HasCheck front back)
    (hi : FillsCheck front back inner) (ho : FillsCheck front back other)
    (hl : ∀ c ∈ lead, Text.isBlank c = true) (ht : ∀ c ∈ trail, Text.isBlank c = true)
    (hb : Cuts body (pre ++ (lead ++ (print (withCheck front inner back) ++ trail)) :: post)) :
    parse (Text.join [','] (pre ++ (lead ++ (print (withCheck front other back) ++ trail)) :: post))
      origin = .ok list := by
  have hw := (cuts_iff.mp hb).2.2 _ (List.mem_append_right _ List.mem_cons_self)
  rw [hc.whole_iff hi hl ht, ← hc.whole_iff ho hl ht] at hw
  exact parse_of_declareAlike (splitTopLevel_iff_cuts.mpr ⟨_, hb, rfl⟩)
    (splitTopLevel_iff_cuts.mpr ⟨_, hb.exchange hw, rfl⟩)
    (declareAlike_exchange hc hi ho hl ht origin) h

end ColumnList

end Bindery

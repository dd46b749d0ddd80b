import Bindery.Column
import Bindery.Proofs.Token.Kinds
import Bindery.Proofs.Token.Runs
import Mathlib.Data.List.Forall2
import Mathlib.Data.List.TakeWhile

namespace Bindery

namespace Token

def word (t : Token) : Text :=
  if t.kind = .word then t.text else []

theorem isKeyword_eq {keyword : Text} (hk : keyword ≠ []) (t : Token) :
    t.isKeyword keyword = t.word.sameIgnoringCase keyword := by
  unfold isKeyword word
  split
  · rename_i hw
    simp [hw]
  · rename_i hw
    have hn : Text.sameIgnoringCase [] keyword = false := by
      rw [Text.sameIgnoringCase, beq_eq_false_iff_ne]
      intro h
      exact hk (List.map_eq_nil_iff.mp h.symm)
    simp [hw, hn]

theorem word_ne_of_keyword {t : Token} {keyword : Text} (h : t.isKeyword keyword = true)
    (other : Text) (hn : keyword.sameIgnoringCase other = false) (ho : other ≠ []) :
    t.word.sameIgnoringCase other = false := by
  rw [← isKeyword_eq ho]
  exact isKeyword_of_other h hn

/-- Two tokens are written alike, wherever they stand. -/
structure SpeltAs (t u : Token) : Prop where
  kind : t.kind = u.kind
  text : t.text = u.text

theorem SpeltAs.congr {α : Type} {f : Token → α} {t u : Token} (h : t.SpeltAs u)
    (hf : ∀ (t : Token) (n : Nat) (p : Position), f { t with offset := n, position := p } = f t) :
    f t = f u := by
  obtain ⟨kind, text, n, p⟩ := t
  obtain ⟨kind', text', m, q⟩ := u
  obtain ⟨rfl, rfl⟩ := h
  exact hf ⟨kind, text, m, q⟩ n p

end Token

/-- What a token behind the type of a column belongs to. In clauses it matters which word stands
before a token, and the first token of a value is taken whatever it is. -/
inductive Zone where
  | clauses (before : Text)
  | value (isFirst : Bool)
  | generated (before : Text)
  deriving DecidableEq, Repr

namespace Zone

def isClauses : Zone → Bool
  | .clauses _ => true
  | _ => false

def isFresh : Zone → Bool
  | .value isFirst => isFirst
  | _ => false

/-- The keywords that end a zone, where they stand outside parentheses and brackets. -/
def stops : Zone → Token → Bool
  | .clauses _, _ => false
  | .value _, t => t.isAnyKeyword Item.defaultEnds
  | .generated _, t => t.isAnyKeyword Item.defaultEnds && !t.isKeyword "GENERATED"

/-- The zone of a token that comes while `zone` goes on. -/
def enter (depth : Nat) (t : Token) (zone : Zone) : Zone :=
  if depth = 0 ∧ zone.isFresh = false ∧ zone.stops t = true then .clauses [] else zone

@[simp] theorem enter_clauses (depth : Nat) (t : Token) (before : Text) :
    enter depth t (.clauses before) = .clauses before :=
  if_neg fun h => Bool.false_ne_true h.2.2

/-- The zone that goes on behind a token. Values and generation clauses begin at the depths of
which `opens` holds. -/
def leave (opens : Nat → Bool) (depth : Nat) (t : Token) : Zone → Zone
  | .clauses _ =>
    if opens depth && t.isKeyword "DEFAULT" then .value true
    else if opens depth && t.isKeyword "GENERATED" then .generated []
    else .clauses t.word
  | .value _ => .value false
  | .generated _ => .generated t.word

theorem leave_other {t : Token} (hd : t.isKeyword "DEFAULT" = false)
    (hg : t.isKeyword "GENERATED" = false) (opens : Nat → Bool) (depth : Nat) (before : Text) :
    leave opens depth t (.clauses before) = .clauses t.word := by
  rw [leave, hd, hg, Bool.and_false, if_neg Bool.false_ne_true, if_neg Bool.false_ne_true]

theorem leave_default {opens : Nat → Bool} {depth : Nat} (ho : opens depth = true) {t : Token}
    (hd : t.isKeyword "DEFAULT" = true) (before : Text) :
    leave opens depth t (.clauses before) = .value true := by
  rw [leave, ho, hd, Bool.true_and, if_pos rfl]

theorem leave_generated {opens : Nat → Bool} {depth : Nat} (ho : opens depth = true) {t : Token}
    (hd : t.isKeyword "DEFAULT" = false) (hg : t.isKeyword "GENERATED" = true) (before : Text) :
    leave opens depth t (.clauses before) = .generated [] := by
  rw [leave, ho, hd, hg, Bool.true_and, if_neg Bool.false_ne_true, Bool.true_and, if_pos rfl]

end Zone

structure Site where
  token : Token
  depth : Nat
  zone : Zone
  deriving DecidableEq, Repr

/-- Where a reader stands between two tokens. -/
structure Standing where
  depth : Nat := 0
  zone : Zone := .clauses []
  deriving DecidableEq, Repr

namespace Standing

def site (s : Standing) (t : Token) : Site :=
  ⟨t, s.depth, s.zone.enter s.depth t⟩

def next (opens : Nat → Bool) (s : Standing) (t : Token) : Standing :=
  ⟨Run.depth s.depth [t], (s.zone.enter s.depth t).leave opens s.depth t⟩

/-- Where the tokens stand that are read from here on. -/
def sites (opens : Nat → Bool) : Standing → List Token → List Site
  | _, [] => []
  | s, t :: rest => s.site t :: sites opens (s.next opens t) rest

theorem sites_append (opens : Nat → Bool) (s : Standing) (front back : List Token) :
    s.sites opens (front ++ back) =
      s.sites opens front ++ (front.foldl (next opens) s).sites opens back := by
  induction front generalizing s with
  | nil => rfl
  | cons t front ih => exact congrArg (s.site t :: ·) (ih (s.next opens t))

end Standing

namespace Site

/-- Whether the column cannot be null because of a token, at whatever depth it stands. -/
def marks (s : Site) : Bool :=
  match s.zone with
  | .clauses before =>
    s.token.isKeyword "PRIMARY" || s.token.isKeyword "NULL" && before.sameIgnoringCase "NOT"
  | .generated _ => s.token.isKeyword "IDENTITY"
  | .value _ => false

theorem marks_clauses (t : Token) (depth : Nat) (before : Text) :
    marks ⟨t, depth, .clauses before⟩ =
      (t.isKeyword "PRIMARY" || t.isKeyword "NULL" && before.sameIgnoringCase "NOT") :=
  rfl

theorem marks_other {t : Token} (hp : t.isKeyword "PRIMARY" = false) {before : Text}
    (hb : t.isKeyword "NULL" = true → before.sameIgnoringCase "NOT" = false) (depth : Nat) :
    marks ⟨t, depth, .clauses before⟩ = false := by
  rw [marks_clauses, hp, Bool.false_or, Bool.and_eq_false_imp]
  exact hb

def continuesValue (s : Site) : Bool :=
  s.zone == .value false

def values : List Site → List (List Token)
  | [] => []
  | s :: rest =>
    if s.zone = .value true then
      (s.token :: (rest.takeWhile continuesValue).map token) :: values rest
    else values rest

theorem takeWhile_append {front back : List Site}
    (h : ∀ s ∈ back.head?, s.continuesValue = false) :
    (front ++ back).takeWhile continuesValue = front.takeWhile continuesValue := by
  induction front with
  | nil =>
    cases back with
    | nil => rfl
    | cons s back => exact List.takeWhile_cons_of_neg (by simp [h s rfl])
  | cons s front ih => simp only [List.cons_append, List.takeWhile_cons, ih]

theorem values_append {front back : List Site} (h : ∀ s ∈ back.head?, s.continuesValue = false) :
    values (front ++ back) = values front ++ values back := by
  induction front with
  | nil => rfl
  | cons s front ih =>
    rw [List.cons_append, values, values, ih, takeWhile_append h]
    split <;> rfl

end Site

namespace Zone

theorem kind_of_stops {z : Zone} {t : Token} (h : z.stops t = true) : t.kind ≠ .symbol := by
  intro hk
  cases z with
  | clauses => cases h
  | value => rw [stops, Token.isAnyKeyword_of_symbol hk] at h; cases h
  | generated => rw [stops, Token.isAnyKeyword_of_symbol hk] at h; cases h

/-- A zone goes on as another one of its kind. -/
inductive Continues : Zone → Zone → Prop
  | value {isFirst : Bool} : Continues (.value isFirst) (.value false)
  | generated {before word : Text} : Continues (.generated before) (.generated word)

theorem Continues.trans {y z w : Zone} (h : Continues y z) (h' : Continues z w) :
    Continues y w := by
  cases h <;> cases h' <;> constructor

theorem Continues.isClauses {y z : Zone} (h : Continues y z) : z.isClauses = false := by
  cases h <;> rfl

theorem Continues.isFresh {y z : Zone} (h : Continues y z) : z.isFresh = false := by
  cases h <;> rfl

theorem Continues.stops {y z : Zone} (h : Continues y z) : z.stops = y.stops := by
  cases h <;> rfl

theorem continues_leave {z : Zone} (h : z.isClauses = false) (opens : Nat → Bool) (d : Nat)
    (t : Token) : Continues z (z.leave opens d t) := by
  cases z with
  | clauses => cases h
  | value => exact .value
  | generated => exact .generated

end Zone

/-- Sites of one zone, the first of which it begins with. -/
inductive Site.Region (z : Zone) : List Site → Prop
  | nil : Region z []
  | cons {s : Site} {rest : List Site} (h : s.zone = z) (hr : ∀ r ∈ rest, z.Continues r.zone) :
      Region z (s :: rest)

namespace Standing

/-- A value or a generation clause goes on up to the first keyword outside that ends it. -/
theorem exists_region (opens : Nat → Bool) {z : Zone} (hz : z.isClauses = false) (d : Nat)
    (tokens : List Token) {n : Nat}
    (hn : n = Run.topIndex z.stops d (if z.isFresh then 1 else 0) tokens) :
    ∃ own, sites opens ⟨d, z⟩ tokens =
        own ++ sites opens ⟨Run.depth d (tokens.take n), .clauses []⟩ (tokens.drop n) ∧
      own.map Site.token = tokens.take n ∧ Site.Region z own := by
  induction tokens generalizing d z n with
  | nil => exact ⟨[], by simp [sites], by simp, .nil⟩
  | cons t rest ih =>
    rw [Run.topIndex_cons Zone.kind_of_stops] at hn
    by_cases hs : d = 0 ∧ z.isFresh = false ∧ z.stops t = true
    · have hw : n = 0 := by simpa [hs] using hn
      have he : z.enter d t = .clauses [] := if_pos hs
      subst hw
      refine ⟨[], ?_, rfl, .nil⟩
      change sites opens ⟨d, z⟩ (t :: rest) = sites opens ⟨d, .clauses []⟩ (t :: rest)
      rw [sites, sites, site, site, next, next, he, Zone.enter_clauses]
    · have he : z.enter d t = z := if_neg hs
      have hc := Zone.continues_leave hz opens d t
      have hw : n = Run.topIndex z.stops (Run.depth d [t]) 0 rest + 1 := by
        cases hf : z.isFresh with
        | false => rwa [hf, if_neg (by simpa [hf] using hs)] at hn
        | true => rwa [hf, if_neg (by simp)] at hn
      subst hw
      obtain ⟨own, hsites, htokens, hr⟩ := ih hc.isClauses (Run.depth d [t])
        (by rw [hc.stops, hc.isFresh])
      refine ⟨⟨t, d, z⟩ :: own, ?_, ?_, .cons rfl ?_⟩
      · rw [sites, site, next, he, List.cons_append]
        exact congrArg _ hsites
      · exact congrArg (t :: ·) htokens
      · intro r hm
        cases hr with
        | nil => cases hm
        | cons h hr =>
          rcases List.mem_cons.mp hm with rfl | hm
          · exact h ▸ hc
          · exact hc.trans (hr r hm)

theorem sites_clauses (opens : Nat → Bool) (d : Nat) (before : Text) (t : Token)
    (rest : List Token) :
    sites opens ⟨d, .clauses before⟩ (t :: rest) = ⟨t, d, .clauses before⟩ ::
      sites opens ⟨Run.depth d [t], Zone.leave opens d t (.clauses before)⟩ rest := by
  rw [sites, site, next, Zone.enter_clauses]

theorem head?_sites_clauses (opens : Nat → Bool) (d : Nat) (before : Text) (tokens : List Token) :
    ∀ s ∈ (sites opens ⟨d, .clauses before⟩ tokens).head?, s.continuesValue = false := by
  cases tokens with
  | nil => simp [sites]
  | cons t rest => simp [sites, site, Site.continuesValue]

end Standing

namespace Site

theorem values_of_none {sites : List Site} (h : ∀ s ∈ sites, s.zone ≠ .value true) :
    values sites = [] := by
  induction sites with
  | nil => rfl
  | cons s rest ih =>
    rw [values, if_neg (h s List.mem_cons_self)]
    exact ih fun r hr => h r (List.mem_cons_of_mem s hr)

namespace Region

theorem exists_value {isFirst : Bool} {own : List Site} (h : Region (.value isFirst) own) :
    ∀ s ∈ own, ∃ first, s.zone = .value first := by
  cases h with
  | nil => exact fun _ hs => nomatch hs
  | cons h hr =>
    intro s hs
    rcases List.mem_cons.mp hs with rfl | hs
    · exact ⟨isFirst, h⟩
    · generalize hz : s.zone = z
      cases hz ▸ hr s hs
      exact ⟨false, rfl⟩

theorem exists_generated {before : Text} {own : List Site} (h : Region (.generated before) own) :
    ∀ s ∈ own, ∃ word, s.zone = .generated word := by
  cases h with
  | nil => exact fun _ hs => nomatch hs
  | cons h hr =>
    intro s hs
    rcases List.mem_cons.mp hs with rfl | hs
    · exact ⟨before, h⟩
    · generalize hz : s.zone = z
      cases hz ▸ hr s hs
      exact ⟨_, rfl⟩

theorem marks_value {isFirst : Bool} {own : List Site} (h : Region (.value isFirst) own) :
    own.any marks = false := by
  rw [List.any_eq_false]
  intro s hs
  obtain ⟨first, hz⟩ := h.exists_value s hs
  simp [marks, hz]

theorem marks_generated {before : Text} {own : List Site} (h : Region (.generated before) own) :
    own.any marks = (own.map token).any (·.isKeyword "IDENTITY") := by
  have hm : ∀ s ∈ own, s.marks = s.token.isKeyword "IDENTITY" := by
    intro s hs
    obtain ⟨word, hz⟩ := h.exists_generated s hs
    rw [marks, hz]
  rw [List.any_map, Bool.eq_iff_iff, List.any_eq_true, List.any_eq_true]
  exact exists_congr fun s => and_congr_right fun hs => by rw [hm s hs]; rfl

theorem values_generated {before : Text} {own : List Site} (h : Region (.generated before) own) :
    values own = [] := by
  apply values_of_none
  intro s hs hv
  obtain ⟨word, hz⟩ := h.exists_generated s hs
  rw [hz] at hv
  cases hv

theorem values_value {own : List Site} (h : Region (.value true) own) :
    values own = if own.isEmpty then [] else [own.map token] := by
  cases h with
  | nil => rfl
  | @cons s rest h hr =>
    have hc : ∀ r ∈ rest, r.zone = .value false := by
      intro r hm
      generalize hz : r.zone = z
      cases hz ▸ hr r hm
      rfl
    have hv : values rest = [] := values_of_none fun r hm => by simp [hc r hm]
    have ht : rest.takeWhile continuesValue = rest :=
      List.takeWhile_eq_self_iff.mpr fun r hm => by simp [continuesValue, hc r hm]
    rw [values, if_pos h, ht, hv]
    rfl

end Region

end Site

namespace Column

/-- The column when clauses have been read whose tokens stand at the sites. -/
def reading (c : Column) (source : Text) (sites : List Site) : Column :=
  { c with
    nullable := c.nullable && !sites.any Site.marks
    default := ((Site.values sites).getLast?.map (Run.covered source)).or c.default }

theorem reading_nil (c : Column) (source : Text) : c.reading source [] = c := by
  simp [reading, Site.values]

theorem reading_append (c : Column) (source : Text) {front more : List Site}
    (hm : ∀ s ∈ more.head?, s.continuesValue = false) :
    c.reading source (front ++ more) = (c.reading source front).reading source more := by
  rw [reading, List.any_append, Site.values_append hm, List.getLast?_append]
  simp only [reading, Bool.not_or, Bool.and_assoc, Option.map_or, Option.or_assoc]

theorem reading_cons (c : Column) (source : Text) {s : Site} (h : s.zone ≠ .value true)
    (sites : List Site) :
    c.reading source (s :: sites) =
      { c with nullable := c.nullable && !s.marks }.reading source sites := by
  simp [reading, Site.values, h, Bool.and_assoc]

theorem reading_generated (c : Column) (source : Text) {before : Text} {own : List Site}
    (h : Site.Region (.generated before) own) :
    c.reading source own =
      if (own.map Site.token).any (·.isKeyword "IDENTITY") then { c with nullable := false }
      else c := by
  rw [reading, h.values_generated, h.marks_generated]
  split
  · rename_i hi
    simp only [hi, Bool.not_true, Bool.and_false]
    rfl
  · rename_i hi
    simp only [hi, Bool.not_false, Bool.and_true]
    rfl

theorem reading_value (c : Column) (source : Text) {own : List Site}
    (h : Site.Region (.value true) own) :
    c.reading source own =
      if (own.map Site.token).isEmpty then c
      else { c with default := some (Run.covered source (own.map Site.token)) } := by
  rw [reading, h.values_value, h.marks_value]
  cases own with
  | nil => simp
  | cons s own => simp

end Column

namespace Item

open Standing

/-- Values and generation clauses begin at every depth. -/
def everywhere : Nat → Bool :=
  fun _ => true

theorem readClauses_eq (source : Text) (depth : Nat) (tokens : List Token) (c : Column)
    {before : Text} (hb : ∀ t ∈ tokens.head?, t.isKeyword "NULL" = true →
      before.sameIgnoringCase "NOT" = false) :
    readClauses source depth tokens c =
      c.reading source (sites everywhere ⟨depth, .clauses before⟩ tokens) := by
  -- `NOT NULL` is taken in one step, so that the walk never stands between the two words, and where
  -- it has jumped to, no word of the clauses stands before it.
  fun_induction readClauses source depth tokens c generalizing before with
  | case1 => exact (Column.reading_nil _ _).symm
  | case2 depth c t rest hn ih =>
    obtain ⟨ht, hr⟩ := Bool.and_eq_true_iff.mp hn
    cases rest with
    | nil => cases hr
    | cons u rest =>
      have hu : u.isKeyword "NULL" = true := hr
      have hw := Token.word_ne_of_keyword hu "NOT" (by decide) (by decide)
      have hm : Site.marks ⟨u, depth, .clauses t.word⟩ = true := by
        rw [Site.marks_clauses, hu, ← Token.isKeyword_eq (by decide), ht, Bool.and_self,
          Bool.or_true]
      have hn : Site.marks ⟨t, depth, .clauses before⟩ = false :=
        Site.marks_other (Token.isKeyword_of_other ht (by decide)) (hb t rfl) depth
      rw [@ih u.word fun _ _ _ => hw, sites_clauses, Column.reading_cons _ _ (by simp),
        hn, Run.depth_of_keyword ht, Zone.leave_other (Token.isKeyword_of_other ht (by decide))
          (Token.isKeyword_of_other ht (by decide)), sites_clauses,
        Column.reading_cons _ _ (by simp), hm, Run.depth_of_keyword hu,
        Zone.leave_other (Token.isKeyword_of_other hu (by decide))
          (Token.isKeyword_of_other hu (by decide)), Bool.not_true, Bool.and_false]
      rfl
  | case3 depth c t rest hn hp ih =>
    have hw := Token.word_ne_of_keyword hp "NOT" (by decide) (by decide)
    have hm : Site.marks ⟨t, depth, .clauses before⟩ = true := by
      rw [Site.marks_clauses, hp, Bool.true_or]
    rw [@ih t.word fun _ _ _ => hw, sites_clauses, Column.reading_cons _ _ (by simp), hm,
      Run.depth_of_keyword hp, Zone.leave_other (Token.isKeyword_of_other hp (by decide))
        (Token.isKeyword_of_other hp (by decide)), Bool.not_true, Bool.and_false]
  | case4 depth c t rest hn hp hd k value c' =>
    rename_i ih
    obtain ⟨own, hs, ht, hr⟩ := exists_region everywhere (z := .value true) rfl depth rest
      (n := k) rfl
    have hm : Site.marks ⟨t, depth, .clauses before⟩ = false :=
      Site.marks_other (Token.isKeyword_of_other hd (by decide)) (hb t rfl) depth
    rw [@ih [] fun _ _ _ => rfl, sites_clauses, Column.reading_cons _ _ (by simp), hm,
      Run.depth_of_keyword hd, Zone.leave_default rfl hd, hs,
      Column.reading_append _ _ (head?_sites_clauses _ _ _ _), Column.reading_value _ _ hr, ht,
      Bool.not_false, Bool.and_true]
    rfl
  | case5 depth c t rest hn hp hd hg k clause c' =>
    rename_i ih
    obtain ⟨own, hs, ht, hr⟩ := exists_region everywhere (z := .generated []) rfl depth rest
      (n := k) rfl
    have hm : Site.marks ⟨t, depth, .clauses before⟩ = false :=
      Site.marks_other (Token.isKeyword_of_other hg (by decide)) (hb t rfl) depth
    rw [@ih [] fun _ _ _ => rfl, sites_clauses, Column.reading_cons _ _ (by simp), hm,
      Run.depth_of_keyword hg, Zone.leave_generated rfl (eq_false_of_ne_true hd) hg, hs,
      Column.reading_append _ _ (head?_sites_clauses _ _ _ _), Column.reading_generated _ _ hr, ht,
      Bool.not_false, Bool.and_true]
    rfl
  | case6 depth c t rest hn hp hd hg ih =>
    have hm : Site.marks ⟨t, depth, .clauses before⟩ = false :=
      Site.marks_other (eq_false_of_ne_true hp) (hb t rfl) depth
    have hw : ∀ u ∈ rest.head?, u.isKeyword "NULL" = true →
        t.word.sameIgnoringCase "NOT" = false := by
      intro u hu hnull
      rw [← Token.isKeyword_eq (by decide), ← Bool.not_eq_true]
      intro ht
      apply hn
      rw [ht, Bool.true_and, Option.mem_def.mp hu]
      exact hnull
    rw [ih hw, sites_clauses, Column.reading_cons _ _ (by simp), hm,
      Zone.leave_other (eq_false_of_ne_true hd) (eq_false_of_ne_true hg), Bool.not_false,
      Bool.and_true]

end Item

section Spelling

variable {R : Token → Token → Prop}

/-- Two sites that differ at most in where their tokens stand in the text. -/
structure Site.Rel (R : Token → Token → Prop) (a b : Site) : Prop where
  token : R a.token b.token
  depth : a.depth = b.depth
  zone : a.zone = b.zone

theorem Standing.sites_rel (hR : ∀ t u, R t u → t.SpeltAs u) (opens : Nat → Bool)
    {ts us : List Token} (h : List.Forall₂ R ts us) (s : Standing) :
    List.Forall₂ (Site.Rel R) (s.sites opens ts) (s.sites opens us) := by
  induction h generalizing s with
  | nil => exact .nil
  | cons ht _ ih =>
    have he : s.zone.enter s.depth _ = s.zone.enter s.depth _ :=
      (hR _ _ ht).congr (f := fun t => s.zone.enter s.depth t) fun t n p => by
        cases s.zone <;> rfl
    have hn : s.next opens _ = s.next opens _ :=
      (hR _ _ ht).congr (f := fun t => s.next opens t) fun t n p => by
        obtain ⟨depth, _ | _ | _⟩ := s <;> rfl
    rw [sites, sites, hn]
    exact .cons ⟨ht, rfl, he⟩ (ih _)

namespace Site

theorem marks_rel (hR : ∀ t u, R t u → t.SpeltAs u) {ss rs : List Site}
    (h : List.Forall₂ (Rel R) ss rs) : ss.any marks = rs.any marks := by
  induction h with
  | nil => rfl
  | @cons a b _ _ hab _ ih =>
    have hm : a.marks = b.marks := by
      rw [marks, marks, hab.zone]
      exact (hR _ _ hab.token).congr (f := fun t => marks ⟨t, 0, b.zone⟩) fun _ _ _ => rfl
    rw [List.any_cons, List.any_cons, hm, ih]

theorem values_rel {ss rs : List Site} (h : List.Forall₂ (Rel R) ss rs) :
    List.Forall₂ (List.Forall₂ R) (values ss) (values rs) := by
  have hw {ss rs : List Site} (h : List.Forall₂ (Rel R) ss rs) :
      List.Forall₂ R ((ss.takeWhile continuesValue).map token)
        ((rs.takeWhile continuesValue).map token) := by
    induction h with
    | nil => exact .nil
    | cons hab _ ih =>
      rw [List.takeWhile_cons, List.takeWhile_cons, continuesValue, continuesValue, hab.zone]
      split
      · exact .cons hab.token ih
      · exact .nil
  induction h with
  | nil => exact .nil
  | cons hab hr ih =>
    rw [values, values, hab.zone]
    split
    · exact .cons (.cons hab.token (hw hr)) ih
    · exact ih

end Site

/-- What the clauses say depends on the texts that their values cover, and else on how their tokens
are written. -/
theorem Column.reading_rel (hR : ∀ t u, R t u → t.SpeltAs u) {source source' : Text}
    (hc : ∀ ts us, List.Forall₂ R ts us → Run.covered source ts = Run.covered source' us)
    {ss rs : List Site} (h : List.Forall₂ (Site.Rel R) ss rs) (c : Column) :
    c.reading source ss = c.reading source' rs := by
  have hv : (Site.values ss).map (Run.covered source) =
      (Site.values rs).map (Run.covered source') := by
    have hs := Site.values_rel h
    generalize Site.values ss = runs at hs ⊢
    generalize Site.values rs = others at hs ⊢
    induction hs with
    | nil => rfl
    | cons ht _ ih => rw [List.map_cons, List.map_cons, hc _ _ ht, ih]
  rw [reading, reading, Site.marks_rel hR h, ← List.getLast?_map, ← List.getLast?_map, hv]

theorem Item.readClauses_rel (hR : ∀ t u, R t u → t.SpeltAs u) {source source' : Text}
    (hc : ∀ ts us, List.Forall₂ R ts us → Run.covered source ts = Run.covered source' us)
    {ts us : List Token} (h : List.Forall₂ R ts us) (depth : Nat) (c : Column) :
    readClauses source depth ts c = readClauses source' depth us c := by
  have hb (tokens : List Token) : ∀ t ∈ tokens.head?, t.isKeyword "NULL" = true →
      Text.sameIgnoringCase [] "NOT" = false := fun _ _ _ => rfl
  rw [readClauses_eq source depth ts c (hb ts), readClauses_eq source' depth us c (hb us)]
  exact c.reading_rel hR hc (Standing.sites_rel hR everywhere h _)

end Spelling

end Bindery

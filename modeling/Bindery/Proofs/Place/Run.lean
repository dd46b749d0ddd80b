import Bindery.Proofs.Column.Clauses
import Bindery.Proofs.Place.Alike

namespace Bindery

variable {d : Displacement}

namespace Token.Alike

variable {t u : Token}

theorem congr {α : Type} {f : Token → α} (h : t.Alike d u)
    (hf : ∀ (t : Token) (p : Position), f { t with position := p } = f t) : f t = f u := by
  obtain ⟨kind, text, offset, p⟩ := t
  obtain ⟨kind', text', offset', q⟩ := u
  obtain ⟨rfl, rfl, rfl, -⟩ := h
  exact hf ⟨kind, text, offset, q⟩ p

theorem isKeyword (h : t.Alike d u) (keyword : Text) : t.isKeyword keyword = u.isKeyword keyword :=
  h.congr (f := (·.isKeyword keyword)) fun _ _ => rfl

theorem isAnyKeyword (h : t.Alike d u) (keywords : List Text) :
    t.isAnyKeyword keywords = u.isAnyKeyword keywords :=
  h.congr (f := (·.isAnyKeyword keywords)) fun _ _ => rfl

theorem isSymbol (h : t.Alike d u) (symbol : Char) : t.isSymbol symbol = u.isSymbol symbol :=
  h.congr (f := (·.isSymbol symbol)) fun _ _ => rfl

theorem isIdentifier (h : t.Alike d u) : t.isIdentifier = u.isIdentifier :=
  h.congr fun _ _ => rfl

theorem opensNesting (h : t.Alike d u) : t.opensNesting = u.opensNesting :=
  h.congr fun _ _ => rfl

theorem closesNesting (h : t.Alike d u) : t.closesNesting = u.closesNesting :=
  h.congr fun _ _ => rfl

theorem name (h : t.Alike d u) : t.name = u.name :=
  h.congr fun _ _ => rfl

theorem stop (h : t.Alike d u) : t.stop = u.stop :=
  h.congr fun _ _ => rfl

end Token.Alike

namespace Run

variable {ts us : List Token}

theorem head?_any_alike {p : Token → Bool} (hp : ∀ t u, t.Alike d u → p t = p u)
    (h : List.Forall₂ (Token.Alike d) ts us) : ts.head?.any p = us.head?.any p := by
  cases h with
  | nil => rfl
  | cons ht _ => exact hp _ _ ht

theorem dropWhile_alike {p : Token → Bool} (hp : ∀ t u, t.Alike d u → p t = p u)
    (h : List.Forall₂ (Token.Alike d) ts us) :
    List.Forall₂ (Token.Alike d) (ts.dropWhile p) (us.dropWhile p) := by
  induction h with
  | nil => exact .nil
  | cons ht hr ih =>
    rw [List.dropWhile_cons, List.dropWhile_cons, hp _ _ ht]
    split
    · exact ih
    · exact .cons ht hr

theorem isEmpty_alike (h : List.Forall₂ (Token.Alike d) ts us) : ts.isEmpty = us.isEmpty := by
  cases h with
  | nil => rfl
  | cons _ _ => rfl

theorem depth_alike (before : Nat) (h : List.Forall₂ (Token.Alike d) ts us) :
    depth before ts = depth before us := by
  induction h generalizing before with
  | nil => rfl
  | cons ht _ ih =>
    simp only [depth, List.foldl_cons, ht.opensNesting, ht.closesNesting] at ih ⊢
    exact ih _

theorem topIndex_alike {p : Token → Bool} (hp : ∀ t u, t.Alike d u → p t = p u) (n skip : Nat)
    (h : List.Forall₂ (Token.Alike d) ts us) : topIndex p n skip ts = topIndex p n skip us := by
  induction h generalizing n skip with
  | nil => rfl
  | cons ht _ ih =>
    rw [topIndex, topIndex, ht.opensNesting, ht.closesNesting, hp _ _ ht, ih, ih, ih]

theorem covered_eq (source : Text) (run : List Token) :
    covered source run = ((run.map Token.offset).head?.bind fun start =>
      (run.map Token.stop).getLast?.map (Text.between source start)).getD [] := by
  rw [covered, List.head?_map, List.getLast?_map]
  cases run.head? <;> cases run.getLast? <;> rfl

theorem covered_alike (source : Text) (h : List.Forall₂ (Token.Alike d) ts us) :
    covered source ts = covered source us := by
  rw [covered_eq, covered_eq, map_eq_of_forall₂ h fun _ _ ht => ht.offset,
    map_eq_of_forall₂ h fun _ _ ht => ht.stop]

theorem typeText_alike (source : Text) (h : List.Forall₂ (Token.Alike d) ts us) :
    typeText source ts = typeText source us :=
  congrArg Text.singleSpaced (covered_alike source h)

theorem closingIndex?_alike (n : Nat) (h : List.Forall₂ (Token.Alike d) ts us) :
    closingIndex? n ts = closingIndex? n us := by
  induction h generalizing n with
  | nil => rfl
  | cons ht _ ih => simp only [closingIndex?, ht.isSymbol, ih]

theorem identifiers_alike (h : List.Forall₂ (Token.Alike d) ts us) :
    (ts.filter Token.isIdentifier).map Token.name =
      (us.filter Token.isIdentifier).map Token.name := by
  have hf : List.Forall₂ (Token.Alike d) (ts.filter Token.isIdentifier)
      (us.filter Token.isIdentifier) :=
    List.rel_filter (fun _ _ ht => by simp only [ht.isIdentifier]) h
  exact map_eq_of_forall₂ hf fun _ _ ht => ht.name

theorem spelledName_alike (h : List.Forall₂ (Token.Alike d) ts us) :
    spelledName ts = spelledName us :=
  congrArg (Text.join ".") (identifiers_alike h)

theorem qualifiedName?_short (first : Token) {rest : List Token} (h : rest.length < 2) :
    qualifiedName? (first :: rest) = if first.isIdentifier then some ([first], rest) else none := by
  rcases rest with _ | ⟨_, _ | ⟨_, _⟩⟩
  · rw [qualifiedName?.eq_def]
  · rw [qualifiedName?.eq_def]
  · simp only [List.length_cons] at h
    omega

theorem length_lt_two {rest : List Token}
    (h : ∀ dot next more, rest = dot :: next :: more → False) :
    rest.length < 2 := by
  rcases rest with _ | ⟨_, _ | ⟨_, _⟩⟩
  · decide
  · simp
  · exact (h _ _ _ rfl).elim

def PairAlike (d : Displacement) (a b : List Token × List Token) : Prop :=
  List.Forall₂ (Token.Alike d) a.1 b.1 ∧ List.Forall₂ (Token.Alike d) a.2 b.2

theorem qualifiedName?_alike (h : List.Forall₂ (Token.Alike d) ts us) :
    Option.Rel (PairAlike d) (qualifiedName? ts) (qualifiedName? us) := by
  fun_induction qualifiedName? ts generalizing us with
  | case1 first dot next rest hf =>
    obtain _ | ⟨ha, _ | ⟨hb, _ | ⟨hc, hr⟩⟩⟩ := h
    rw [qualifiedName?, ← ha.isIdentifier, if_pos hf]
    exact .none
  | case2 first dot next rest hf hd ih =>
    obtain _ | ⟨ha, _ | ⟨hb, _ | ⟨hc, hr⟩⟩⟩ := h
    rw [qualifiedName?, ← ha.isIdentifier, if_neg hf, ← hb.isSymbol, ← hc.isIdentifier, if_pos hd]
    have hi := ih (.cons hc hr)
    revert hi
    generalize qualifiedName? (next :: rest) = x
    generalize qualifiedName? _ = y
    rintro (⟨hn, hm⟩ | _)
    · exact .some ⟨.cons ha (.cons hb hn), hm⟩
    · exact .none
  | case3 first dot next rest hf hd =>
    obtain _ | ⟨ha, _ | ⟨hb, _ | ⟨hc, hr⟩⟩⟩ := h
    rw [qualifiedName?, ← ha.isIdentifier, if_neg hf, ← hb.isSymbol, ← hc.isIdentifier, if_neg hd]
    exact .some ⟨.cons ha .nil, .cons hb (.cons hc hr)⟩
  | case4 first rest hr hf =>
    obtain _ | ⟨ha, hr'⟩ := h
    rw [qualifiedName?_short _ (hr'.length_eq ▸ length_lt_two hr), ← ha.isIdentifier, if_pos hf]
    exact .some ⟨.cons ha .nil, hr'⟩
  | case5 first rest hr hf =>
    obtain _ | ⟨ha, hr'⟩ := h
    rw [qualifiedName?_short _ (hr'.length_eq ▸ length_lt_two hr), ← ha.isIdentifier, if_neg hf]
    exact .none
  | case6 =>
    cases h
    exact .none

/-- Two lists in parentheses that differ in their places only. -/
structure Parenthesized.Alike (d : Displacement) (a b : Parenthesized) : Prop where
  inner : List.Forall₂ (Token.Alike d) a.inner b.inner
  text : a.text = b.text
  origin : d.Rel a.origin b.origin
  after : List.Forall₂ (Token.Alike d) a.after b.after

theorem parenthesized_alike (source : Text) {o o' : Token} (ho : o.Alike d o')
    (h : List.Forall₂ (Token.Alike d) ts us) :
    Agree d (Parenthesized.Alike d) (parenthesized source o ts) (parenthesized source o' us) := by
  unfold parenthesized
  rw [← closingIndex?_alike 0 h]
  split
  · rename_i k hk
    have hs : (ts[k]?).map Token.offset = (us[k]?).map Token.offset := by
      rw [← List.getElem?_map, ← List.getElem?_map, map_eq_of_forall₂ h fun _ _ ht => ht.offset]
    rw [hs, ho.stop]
    exact .ok ⟨List.forall₂_take _ h, rfl, d.next '(' ho.position, List.forall₂_drop _ h⟩
  · exact .error (.unbalanced ho.position)

end Run

namespace Item

variable {ts us : List Token}

theorem isTableConstraint_alike (h : List.Forall₂ (Token.Alike d) ts us) :
    isTableConstraint ts = isTableConstraint us := by
  obtain _ | ⟨ha, _ | ⟨hb, hr⟩⟩ := h
  · rfl
  · rfl
  · rename_i rest rest'
    have hl : rest.head?.all (·.isAnyKeyword ["INCLUDING", "EXCLUDING"]) =
        rest'.head?.all (·.isAnyKeyword ["INCLUDING", "EXCLUDING"]) := by
      cases hr with
      | nil => rfl
      | cons ht _ => exact ht.isAnyKeyword _
    simp only [isTableConstraint, ha.isAnyKeyword, ha.isKeyword, hb.isSymbol, hb.isAnyKeyword,
      hb.isKeyword, hb.isIdentifier, hl]

theorem readClauses_alike (source : Text) (depth : Nat) (h : List.Forall₂ (Token.Alike d) ts us)
    (c : Column) : readClauses source depth ts c = readClauses source depth us c :=
  readClauses_rel (fun _ _ h => ⟨h.kind, h.text⟩) (fun _ _ h => Run.covered_alike source h) h depth
    c

theorem column?_alike (source : Text) (h : List.Forall₂ (Token.Alike d) ts us) :
    column? source ts = column? source us := by
  cases h with
  | nil => rfl
  | cons ht hr =>
    have hk := Run.topIndex_alike (fun _ _ h => h.isAnyKeyword typeEnds) 0 0 hr
    simp only [column?, hk, ht.isIdentifier, ht.name,
      Run.typeText_alike source (List.forall₂_take _ hr),
      readClauses_alike source 0 (List.forall₂_drop _ hr)]

theorem ofTokens?_alike (source : Text) (h : List.Forall₂ (Token.Alike d) ts us) :
    ofTokens? source ts = ofTokens? source us := by
  have hn := Run.head?_any_alike (fun _ _ h => h.isKeyword "CONSTRAINT") h
  have hr (named : Bool) : List.Forall₂ (Token.Alike d) (if named then ts.drop 2 else ts)
      (if named then us.drop 2 else us) := by
    cases named with
    | false => exact h
    | true => exact List.forall₂_drop 2 h
  simp only [ofTokens?, hn]
  generalize us.head?.any (·.isKeyword "CONSTRAINT") = named
  have hr := hr named
  generalize (if named then ts.drop 2 else ts) = rest at hr
  generalize (if named then us.drop 2 else us) = rest' at hr
  have hc := column?_alike source hr
  have ht := isTableConstraint_alike hr
  have hd := Run.dropWhile_alike (p := fun t => !t.isSymbol '(')
    (fun _ _ h => by rw [h.isSymbol]) hr
  have hi := Run.identifiers_alike hd
  cases hr with
  | nil => rfl
  | cons hf _ => simp only [hf.isKeyword, ht, hc, hi]

end Item

theorem Fragment.item?_alike {f g : Fragment} (h : f.Alike d g) : Agree d Eq f.item? g.item? := by
  rw [item?, item?, ← h.text]
  apply (significantTokens_alike h.position f.text).bind
  intro ts us hts
  exact .ok (Item.ofTokens?_alike f.text hts)

namespace ColumnList

theorem ofItems_map {g : Fragment × Option Item → Fragment}
    (hg : ∀ f, (g (f, none)).text = f.text) (items : List (Fragment × Option Item)) :
    ofItems (items.map fun p => (g p, p.2)) = ofItems items := by
  simp only [ofItems, List.flatMap_map, List.filterMap_map]
  congr 2
  · funext c
    congr 4
    funext ⟨f, item⟩
    rcases item with _ | _ | _ | _ <;> rfl
  · congr 1
    funext ⟨f, item⟩
    rcases item with _ | _ | _ | _ <;> rfl
  · funext ⟨f, item⟩
    rcases item with _ | _ | _ | _
    · exact congrArg some (hg f)
    · rfl
    · rfl
    · rfl

theorem ofItems_rel {items items' : List (Fragment × Option Item)}
    (h : List.Forall₂ (fun a b => a.2 = b.2 ∧ (a.2 = none → a.1.text = b.1.text)) items items') :
    ofItems items = ofItems items' := by
  have hm (items : List (Fragment × Option Item)) := ofItems_map
    (g := fun p => ⟨if p.2.isNone then p.1.text else [], .start⟩) (fun _ => rfl) items
  rw [← hm items, ← hm items']
  apply congrArg
  apply map_eq_of_forall₂ h
  rintro ⟨f, item⟩ ⟨g, _⟩ ⟨rfl, ht⟩
  cases item with
  | none => exact congrArg (fun t => (Fragment.mk t .start, none)) (ht rfl)
  | some item => rfl

theorem parse_alike (body : Text) {p q : Position} (h : d.Rel p q) :
    Agree d Eq (parse body p) (parse body q) := by
  apply (splitTopLevel_alike h body).bind
  intro fs gs hfs
  apply (Agree.mapM (T := fun a b => a.1.Alike d b.1 ∧ a.2 = b.2) hfs _).bind
  · intro items items' hi
    exact .ok (ofItems_rel (hi.imp fun _ _ h => ⟨h.2, fun _ => h.1.text⟩))
  · intro f g hf
    apply (Fragment.item?_alike hf).bind
    rintro item _ rfl
    exact .ok ⟨hf, rfl⟩

theorem parenthesized_alike {α β : Type} {S : α → β → Prop} {f : ColumnList → Except ParseError α}
    {g : ColumnList → Except ParseError β} (hk : ∀ columns, Agree d S (f columns) (g columns))
    (source : Text) {o o' : Token} (ho : o.Alike d o') {ts us : List Token}
    (h : List.Forall₂ (Token.Alike d) ts us) :
    Agree d S (Run.parenthesized source o ts >>= fun list => parse list.text list.origin >>= f)
      (Run.parenthesized source o' us >>= fun list => parse list.text list.origin >>= g) := by
  apply (Run.parenthesized_alike source ho h).bind
  intro a b hab
  rw [← hab.text]
  apply (parse_alike a.text hab.origin).bind
  rintro columns _ rfl
  exact hk columns

end ColumnList

end Bindery

import Bindery.Proofs.Nesting
import Bindery.Proofs.Text.Cut
import Bindery.Proofs.Token.Lexes
import Bindery.Token.Run

namespace Bindery

/-- A token stands in the text with what is written before and behind it. -/
def Token.Within (source : Text) (t : Token) : Prop :=
  ∃ before after, source = before ++ (t.text ++ after) ∧ t.offset = before.byteSize

/-- A token stands in the front of a text. -/
structure Token.Inside (source : Text) (t : Token) : Prop where
  offset : ∃ before rest, source = before ++ rest ∧ t.offset = before.byteSize
  stop : t.stop ≤ source.byteSize

theorem Run.covered_inside {source : Text} {ts : List Token} (h : ∀ t ∈ ts, t.Inside source)
    (more : Text) : covered (source ++ more) ts = covered source ts := by
  unfold covered
  cases hf : ts.head? with
  | none => rfl
  | some first =>
    cases hl : ts.getLast? with
    | none => rfl
    | some last =>
      obtain ⟨before, rest, rfl, ho⟩ := (h first (List.mem_of_head? hf)).offset
      simp only [ho]
      exact Text.between_append_left (h last (List.mem_of_getLast? hl)).stop more

theorem Token.Within.inside {source : Text} {t : Token} (h : t.Within source) :
    t.Inside source := by
  obtain ⟨before, after, rfl, ho⟩ := h
  refine ⟨⟨before, t.text ++ after, rfl, ho⟩, ?_⟩
  rw [Token.stop, ho, Text.byteSize_append, Text.byteSize_append]
  omega

theorem Lexes.within {source text tail : Text} {position : Position} {offset : Nat}
    {ts : List Token} (h : Lexes tail offset position text ts) {before : Text}
    (hs : source = before ++ text) (ho : offset = before.byteSize) : ∀ t ∈ ts, t.Within source := by
  induction h generalizing before with
  | done => exact List.forall_mem_nil _
  | @token offset position kind t rest tokens _ _ ih =>
    subst hs ho
    rw [List.forall_mem_cons]
    refine ⟨⟨before, rest, rfl, rfl⟩, ?_⟩
    refine @ih (before ++ t) ?_ ?_
    · rw [List.append_assoc]
    · rw [Text.byteSize_append]

theorem Token.Within.between_eq {source : Text} {t : Token} (ht : t.Within source) {stop : Nat}
    (hs : stop ≤ source.byteSize) (more : Text) :
    Text.between (source ++ more) t.stop stop = Text.between source t.stop stop := by
  obtain ⟨before, after, rfl, ho⟩ := ht
  have hstop : t.stop = (before ++ t.text).byteSize := by
    rw [Token.stop, ho, Text.byteSize_append]
  rw [← List.append_assoc] at hs ⊢
  rw [hstop]
  exact Text.between_append_left hs more

theorem Token.Within.offset_le {source : Text} {t : Token} (ht : t.Within source) :
    t.offset ≤ source.byteSize := by
  obtain ⟨before, after, rfl, ho⟩ := ht
  rw [ho, Text.byteSize_append]
  omega

theorem Lexes.ordered {tail text : Text} {offset : Nat} {position : Position} {ts : List Token}
    (h : Lexes tail offset position text ts) :
    (∀ t ∈ ts, offset ≤ t.offset) ∧ ts.Pairwise fun t u => t.stop ≤ u.offset := by
  induction h with
  | done => exact ⟨List.forall_mem_nil _, .nil⟩
  | @token offset position kind t rest tokens _ _ ih =>
    refine ⟨List.forall_mem_cons.mpr ⟨Nat.le_refl _, ?_⟩, .cons ih.1 ih.2⟩
    intro u hu
    exact Nat.le_trans (Nat.le_add_right _ _) (ih.1 u hu)

theorem Token.Within.isBoundary_offset {source : Text} {t : Token} (h : t.Within source) :
    source.isBoundary t.offset = true := by
  obtain ⟨before, after, rfl, ho⟩ := h
  rw [ho]
  exact Text.isBoundary_append before _

theorem Token.Within.isBoundary_stop {source : Text} {t : Token} (h : t.Within source) :
    source.isBoundary t.stop = true := by
  obtain ⟨before, after, rfl, ho⟩ := h
  rw [Token.stop, ho, ← Text.byteSize_append, ← List.append_assoc]
  exact Text.isBoundary_append (before ++ t.text) after

namespace Token

theorem kind_of_opensNesting {t : Token} (h : t.opensNesting = true) : t.kind = .symbol := by
  simp only [opensNesting, isSymbol, Bool.or_eq_true, Bool.and_eq_true, beq_iff_eq] at h
  exact h.elim And.left And.left

theorem kind_of_closesNesting {t : Token} (h : t.closesNesting = true) : t.kind = .symbol := by
  simp only [closesNesting, isSymbol, Bool.or_eq_true, Bool.and_eq_true, beq_iff_eq] at h
  exact h.elim And.left And.left

end Token

namespace Run

variable {run name : List Token} {opening closing : Token}

theorem depth_append (before : Nat) (run rest : List Token) :
    depth before (run ++ rest) = depth (depth before run) rest :=
  List.foldl_append

theorem topIndex_append {stop : Token → Bool} {run : List Token} (h : ∀ t ∈ run, stop t = false)
    (d skip : Nat) (rest : List Token) :
    topIndex stop d skip (run ++ rest) =
      run.length + topIndex stop (depth d run) (skip - run.length) rest := by
  induction run generalizing d skip with
  | nil => simp [depth]
  | cons t run ih =>
    have ht : stop t = false := h t (by simp)
    have ih := ih fun u hu => h u (by simp [hu])
    have hk : skip - 1 - run.length = skip - (run.length + 1) := by omega
    simp only [List.cons_append, topIndex, ih, hk, depth, List.foldl_cons, List.length_cons]
    split
    · omega
    · split
      · omega
      · simp only [ht]
        simp
        omega

theorem depth_singleton {t : Token} (h : t.kind ≠ .symbol) (d : Nat) : depth d [t] = d := by
  simp [depth, Token.opensNesting, Token.closesNesting, Token.isSymbol, h]

theorem topIndex_of_stop {stop : Token → Bool} {t : Token} (hk : t.kind ≠ .symbol)
    (hs : stop t = true) (rest : List Token) : topIndex stop 0 0 (t :: rest) = 0 := by
  simp [topIndex, Token.opensNesting, Token.closesNesting, Token.isSymbol, hk, hs]

theorem depth_of_keyword {t : Token} {keyword : Text} (h : t.isKeyword keyword = true) (d : Nat) :
    depth d [t] = d := by
  apply depth_singleton
  intro hk
  simp [Token.isKeyword, hk] at h

/-- A search for a word goes on from token to token until the word stands outside. -/
theorem topIndex_cons {stop : Token → Bool} {t : Token} (h : stop t = true → t.kind ≠ .symbol)
    (d skip : Nat) (rest : List Token) :
    topIndex stop d skip (t :: rest) =
      if skip = 0 ∧ d = 0 ∧ stop t = true then 0
      else topIndex stop (depth d [t]) (skip - 1) rest + 1 := by
  by_cases ho : t.opensNesting = true
  · have hs : ¬ stop t = true := fun hs => h hs (Token.kind_of_opensNesting ho)
    simp [topIndex, depth, ho, hs]
  · by_cases hc : t.closesNesting = true
    · have hs : ¬ stop t = true := fun hs => h hs (Token.kind_of_closesNesting hc)
      simp [topIndex, depth, ho, hc, hs]
    · simp [topIndex, depth, ho, hc]

/-- A search ends at the first word it looks for that stands outside parentheses and brackets. -/
theorem topIndex_eq {stop : Token → Bool} (hk : ∀ t, stop t = true → t.kind ≠ .symbol) {d : Nat}
    {run : List Token}
    (h : ∀ before t after, run = before ++ t :: after → stop t = true → depth d before ≠ 0)
    (hd : depth d run = 0) {t : Token} (ht : stop t = true) (rest : List Token) :
    topIndex stop d 0 (run ++ t :: rest) = run.length := by
  induction run generalizing d with
  | nil =>
    rw [show d = 0 from hd]
    exact topIndex_of_stop (hk t ht) ht rest
  | cons u run ih =>
    have hu : ¬ (0 = 0 ∧ d = 0 ∧ stop u = true) := fun hu => h [] u run rfl hu.2.2 hu.2.1
    rw [List.cons_append, topIndex_cons (hk u), if_neg hu, List.length_cons]
    congr 1
    apply ih
    · intro before v after hr hv
      have hb := h (u :: before) v after (by rw [hr]; rfl) hv
      rwa [← List.singleton_append, depth_append] at hb
    · rwa [← depth_append, List.singleton_append]

theorem depth_of_depthAfter? {p p' k k' : Nat}
    (hp : depthAfter? Token.isSymbol '(' ')' p run = some p')
    (hk : depthAfter? Token.isSymbol '[' ']' k run = some k') (n : Nat) :
    depth (n + p + k) run = n + p' + k' := by
  have hone {t : Token} {p p' k k' : Nat}
      (hp : depthAfter? Token.isSymbol '(' ')' p [t] = some p')
      (hk : depthAfter? Token.isSymbol '[' ']' k [t] = some k') :
      depth (n + p + k) [t] = n + p' + k' := by
    have hu := Token.isSymbol_unambiguous t
    simp only [depthAfter?] at hp hk
    simp only [depth, List.foldl_cons, List.foldl_nil, Token.opensNesting, Token.closesNesting]
    grind
  induction run generalizing p k with
  | nil =>
    cases hp
    cases hk
    rfl
  | cons t run ih =>
    rw [← List.singleton_append, depthAfter?_append] at hp hk
    obtain ⟨p₁, hp, hp'⟩ := Option.bind_eq_some_iff.mp hp
    obtain ⟨k₁, hk, hk'⟩ := Option.bind_eq_some_iff.mp hk
    rw [← List.singleton_append, depth_append, hone hp hk, ih hp' hk']

/-- The parenthesis that closes a list is looked for behind a run as if the run were not there. -/
theorem closingIndex?_append {d e : Nat} (h : depthAfter? Token.isSymbol '(' ')' d run = some e)
    (rest : List Token) :
    closingIndex? d (run ++ rest) = (closingIndex? e rest).map (· + run.length) := by
  induction run generalizing d with
  | nil =>
    cases h
    simp
  | cons t run ih =>
    have hm (x : Option Nat) : (x.map (· + run.length)).map (· + 1) =
        x.map (· + (t :: run).length) := by
      rw [Option.map_map]
      rfl
    rw [depthAfter?] at h
    rw [List.cons_append, closingIndex?]
    split at h
    · rename_i ho
      rw [if_pos ho, ih h, hm]
    · rename_i ho
      rw [if_neg ho]
      split at h
      · rename_i hc
        split at h
        · cases h
        · rename_i hd
          rw [if_pos hc, if_neg hd, ih h, hm]
      · rename_i hc
        rw [if_neg hc, ih h, hm]

theorem closingIndex?_closing (h : depthAfter? Token.isSymbol '(' ')' 0 run = some 0)
    (hc : closing.isSymbol ')' = true) (rest : List Token) :
    closingIndex? 0 (run ++ closing :: rest) = some run.length := by
  have ho : closing.isSymbol '(' = false := by
    rw [Bool.eq_false_iff]
    intro ho
    exact absurd (Token.isSymbol_unambiguous closing _ _ ho hc) (by decide)
  rw [closingIndex?_append h, closingIndex?, ho, hc]
  simp

theorem parenthesized_eq (source : Text) (opening : Token)
    (h : depthAfter? Token.isSymbol '(' ')' 0 run = some 0) (hc : closing.isSymbol ')' = true)
    (rest : List Token) :
    parenthesized source opening (run ++ closing :: rest) =
      .ok ⟨run, Text.between source opening.stop closing.offset, opening.position.next '(',
        rest⟩ := by
  rw [parenthesized, closingIndex?_closing h hc]
  simp

theorem parenthesized_within {source : Text} {opening : Token} {rest : List Token}
    (ho : opening.Within source) (hr : ∀ t ∈ rest, t.Within source) (more : Text)
    {list : Parenthesized} :
    parenthesized (source ++ more) opening rest = .ok list ↔
      parenthesized source opening rest = .ok list := by
  unfold parenthesized
  cases closingIndex? 0 rest with
  | none => simp
  | some n =>
    have hs : ((rest[n]?).map Token.offset).getD opening.stop ≤ source.byteSize := by
      cases hn : rest[n]? with
      | none => exact ho.inside.stop
      | some closing => exact (hr closing (List.mem_of_getElem? hn)).offset_le
    simp only [ho.between_eq hs more]

/-- As many parentheses and as many brackets are closed in a run as are opened. -/
def Outside (run : List Token) : Prop :=
  excess Token.isSymbol '(' ')' run = 0 ∧ excess Token.isSymbol '[' ']' run = 0

instance (run : List Token) : Decidable (Outside run) :=
  inferInstanceAs (Decidable (_ ∧ _))

theorem depth_eq_zero_iff {front back : List Token}
    (hp : Balanced Token.isSymbol '(' ')' (front ++ back))
    (hk : Balanced Token.isSymbol '[' ']' (front ++ back)) : depth 0 front = 0 ↔ Outside front := by
  obtain ⟨p, hp, hpe⟩ := hp.exists_depthAfter? Token.isSymbol_unambiguous (by decide)
  obtain ⟨k, hk, hke⟩ := hk.exists_depthAfter? Token.isSymbol_unambiguous (by decide)
  have hd : depth 0 front = 0 + p + k := depth_of_depthAfter? hp hk 0
  unfold Outside
  rw [← hpe, ← hke]
  omega

/-- Identifiers with points between them. -/
inductive IsName : List Token → Prop
  | last {t : Token} : t.isIdentifier = true → IsName [t]
  | qualified {t dot : Token} {name : List Token} : t.isIdentifier = true →
      dot.isSymbol '.' = true → IsName name → IsName (t :: dot :: name)

theorem IsName.exists_head (h : IsName name) :
    ∃ first more, name = first :: more ∧ first.isIdentifier = true := by
  cases h with
  | last ht => exact ⟨_, _, rfl, ht⟩
  | qualified ht _ _ => exact ⟨_, _, rfl, ht⟩

theorem qualifiedName?_eq (h : IsName name) (ho : opening.isSymbol '.' = false)
    (rest : List Token) :
    qualifiedName? (name ++ opening :: rest) = some (name, opening :: rest) := by
  induction h with
  | @last t ht =>
    cases rest with
    | nil => simp [qualifiedName?, ht]
    | cons u rest => simp [qualifiedName?, ht, ho]
  | @qualified t dot name ht hd hn ih =>
    obtain ⟨next, more, rfl, hnext⟩ := hn.exists_head
    have hq : (dot.isSymbol '.' && next.isIdentifier) = true := by rw [hd, hnext]; rfl
    rw [List.cons_append] at ih
    rw [List.cons_append, List.cons_append, List.cons_append, qualifiedName?, ht, if_pos hq, ih]
    rfl

theorem qualifiedName?_sound {header name after : List Token}
    (h : qualifiedName? header = some (name, after)) :
    header = name ++ after ∧ name ≠ [] ∧
      ∀ t ∈ name, t.isIdentifier = true ∨ t.isSymbol '.' = true := by
  fun_induction qualifiedName? header generalizing name after with
  | case1 first dot next rest hf => cases h
  | case2 first dot next rest hf hd ih =>
    obtain ⟨⟨more, after'⟩, hm, he⟩ := Option.map_eq_some_iff.mp h
    cases he
    obtain ⟨hs, -, hi⟩ := ih hm
    simp only [Bool.and_eq_true, Bool.not_eq_true] at hd hf
    refine ⟨by rw [hs]; rfl, by simp, ?_⟩
    intro t ht
    rcases List.mem_cons.mp ht with rfl | ht
    · exact .inl (by simpa using hf)
    · rcases List.mem_cons.mp ht with rfl | ht
      · exact .inr hd.1
      · exact hi t ht
  | case3 first dot next rest hf hd =>
    cases h
    refine ⟨rfl, by simp, ?_⟩
    intro t ht
    rw [List.mem_singleton.mp ht]
    exact .inl (by simpa using hf)
  | case4 first rest hr hf =>
    cases h
    refine ⟨rfl, by simp, ?_⟩
    intro t ht
    rw [List.mem_singleton.mp ht]
    exact .inl hf
  | case5 first rest hr hf => cases h
  | case6 => cases h

end Run

end Bindery

import Bindery.Proofs.Statement.Blanking
import Bindery.Proofs.Token.Runs

namespace Bindery

theorem significantTokens_within {text : Text} {position : Position} {tokens : List Token}
    (h : significantTokens text position = .ok tokens) :
    (∀ t ∈ tokens, t.Within text) ∧ tokens.Pairwise fun t u => t.stop ≤ u.offset := by
  cases ha : tokenize text position with
  | error e =>
    rw [significantTokens, ha] at h
    cases h
  | ok all =>
    rw [significantTokens, ha] at h
    cases h
    have hx := tokenize_eq_ok_iff.mp ha
    refine ⟨?_, hx.ordered.2.filter _⟩
    intro t ht
    exact hx.within (List.nil_append text).symm rfl t (List.mem_of_mem_filter ht)

theorem Token.isSymbol_of_appearance {t u : Token} (h : t.appearance = u.appearance) (c : Char) :
    t.isSymbol c = u.isSymbol c := by
  obtain ⟨hk, h⟩ := Prod.mk.inj h
  obtain ⟨ht, -⟩ := Prod.mk.inj h
  rw [isSymbol, isSymbol, hk, ht]

theorem depthAfter?_of_appearance {ts us : List Token}
    (h : ts.map Token.appearance = us.map Token.appearance) (opening closing : Char) (depth : Nat) :
    depthAfter? Token.isSymbol opening closing depth ts =
      depthAfter? Token.isSymbol opening closing depth us := by
  induction ts generalizing us depth with
  | nil =>
    cases us with
    | nil => rfl
    | cons u us => cases h
  | cons t ts ih =>
    cases us with
    | nil => cases h
    | cons u us =>
      obtain ⟨ht, hs⟩ := List.cons.inj h
      simp only [depthAfter?, Token.isSymbol_of_appearance ht, ih hs]

theorem exists_group {groups : List (List Token)} {statements : List Statement}
    (h : List.Forall₂ IsStatement groups statements) {s : Statement} (hs : s ∈ statements) :
    ∃ group ∈ groups, IsStatement group s := by
  induction h with
  | nil => cases hs
  | @cons group t groups statements hg _ ih =>
    rcases List.mem_cons.mp hs with rfl | hs
    · exact ⟨group, List.mem_cons_self, hg⟩
    · obtain ⟨other, ho, hi⟩ := ih hs
      exact ⟨other, List.mem_cons_of_mem group ho, hi⟩

theorem exists_balanced_tokens {source : Text} {statements : List Statement}
    (h : segment source = .ok statements) {s : Statement} (hs : s ∈ statements) :
    ∃ tokens, significantTokens s.text s.position = .ok tokens ∧
      Balanced Token.isSymbol '(' ')' tokens := by
  cases ht : tokenize source .start with
  | error error =>
    rw [segment, ht] at h
    cases h
  | ok all =>
    have ho := outcome_segment ht
    rw [h] at ho
    obtain ⟨hf, hb⟩ := ho.ok
    obtain ⟨group, hg, hi⟩ := exists_group hf hs
    obtain ⟨again, ha, he⟩ := hi.rereads (tokenize_eq_ok_iff.mp ht) hg
    refine ⟨again, ha, balanced_parens_iff.mpr ?_⟩
    rw [depthAfter?_of_appearance he, codeTokens, depthAfter?_filter]
    · exact balanced_parens_iff.mp (hb group hg)
    · intro t htrivia
      have htrivia : t.isTrivia = true := by simpa using htrivia
      exact ⟨Token.isSymbol_of_trivia htrivia _, Token.isSymbol_of_trivia htrivia _⟩

namespace Run

/-- The tokens behind the one at `i` and before the one at `j`. -/
def inside (tokens : List Token) (i j : Nat) : List Token :=
  (tokens.take j).drop (i + 1)

/--
The token at `j` closes the list that the one at `i` opens: the parentheses between the two match,
and at no earlier closing parenthesis as many are closed as are opened. The list is the text between
the two, which is a part of the source and made of whole characters.
-/
structure ClosedBy (source : Text) (tokens : List Token) (i : Nat) (opening : Token) (j : Nat)
    (closing : Token) : Prop where
  found : closingIndex? 0 (tokens.drop (i + 1)) = some (j - (i + 1))
  behind : i < j
  stands : tokens[j]? = some closing
  closes : closing.isSymbol ')' = true
  balanced : Balanced Token.isSymbol '(' ')' (inside tokens i j)
  least : ∀ k t, i < k → tokens[k]? = some t → t.isSymbol ')' = true →
    excess Token.isSymbol '(' ')' (inside tokens i k) = 0 → j ≤ k
  ordered : opening.stop ≤ closing.offset
  bounded : closing.offset ≤ source.byteSize
  starts : source.isBoundary opening.stop = true
  stops : source.isBoundary closing.offset = true
  list : parenthesized source opening (tokens.drop (i + 1)) =
    .ok ⟨inside tokens i j, Text.between source opening.stop closing.offset,
      opening.position.next '(', tokens.drop (j + 1)⟩

theorem split_at {tokens : List Token} {i : Nat} {t : Token} (h : tokens[i]? = some t) :
    tokens = tokens.take i ++ t :: tokens.drop (i + 1) := by
  obtain ⟨hlt, hget⟩ := List.getElem?_eq_some_iff.mp h
  rw [← hget, ← List.drop_eq_getElem_cons hlt, List.take_append_drop]

theorem length_le_of_closing {inner after : List Token} {closing t : Token} {n : Nat}
    (hi : Balanced Token.isSymbol '(' ')' inner) (ht : (inner ++ closing :: after)[n]? = some t)
    (hc : t.isSymbol ')' = true)
    (he : excess Token.isSymbol '(' ')' ((inner ++ closing :: after).take n) = 0) :
    inner.length ≤ n := by
  have hl := hi.length_le Token.isSymbol_unambiguous (by decide) (split_at ht) hc he
  exact Nat.le_trans hl (List.length_take_le n _)

theorem closedBy_of_append {source : Text} {front inner after : List Token}
    {opening closing : Token}
    (hw : ∀ t ∈ front ++ opening :: (inner ++ closing :: after), t.Within source)
    (hp : (front ++ opening :: (inner ++ closing :: after)).Pairwise fun t u => t.stop ≤ u.offset)
    (hi : Balanced Token.isSymbol '(' ')' inner) (hc : closing.isSymbol ')' = true) :
    ClosedBy source (front ++ opening :: (inner ++ closing :: after)) front.length opening
      (front.length + 1 + inner.length) closing := by
  have hd : (front ++ opening :: (inner ++ closing :: after)).drop (front.length + 1) =
      inner ++ closing :: after := by
    simp [List.drop_append]
  have hg (n : Nat) :
      (front ++ opening :: (inner ++ closing :: after))[front.length + 1 + n]? =
        (inner ++ closing :: after)[n]? := by
    rw [← List.getElem?_drop, hd]
  have hn (n : Nat) :
      inside (front ++ opening :: (inner ++ closing :: after)) front.length (front.length + 1 + n) =
        (inner ++ closing :: after).take n := by
    rw [inside, List.drop_take, hd, Nat.add_sub_cancel_left]
  have hr : (front ++ opening :: (inner ++ closing :: after)).drop
      (front.length + 1 + inner.length + 1) = after := by
    rw [Nat.add_assoc _ inner.length, ← List.drop_drop, hd]
    simp
  have hz := balanced_parens_iff.mp hi
  have ho : opening.Within source := hw opening (by simp)
  have hl : closing.Within source := hw closing (by simp)
  refine
    { found := ?found
      behind := by omega
      stands := ?stands
      closes := hc
      balanced := ?balanced
      least := ?least
      ordered := ?ordered
      bounded := hl.offset_le
      starts := ho.isBoundary_stop
      stops := hl.isBoundary_offset
      list := ?list }
  case found => rw [hd, closingIndex?_closing hz hc, Nat.add_sub_cancel_left]
  case stands =>
    rw [hg, List.getElem?_append_right (Nat.le_refl _), Nat.sub_self]
    rfl
  case balanced => rwa [hn, List.take_left]
  case least =>
    intro k t hk ht hct he
    obtain ⟨n, rfl⟩ := Nat.exists_eq_add_of_le (Nat.succ_le_of_lt hk)
    rw [hg] at ht
    rw [hn] at he
    have hle := length_le_of_closing hi ht hct he
    omega
  case ordered =>
    have hafter := (List.pairwise_cons.mp (List.pairwise_append.mp hp).2.1).1
    exact hafter closing (by simp)
  case list => rw [hd, parenthesized_eq source opening hz hc, hn, List.take_left, hr]

theorem exists_closedBy {source : Text} {tokens : List Token}
    (hw : ∀ t ∈ tokens, t.Within source) (hp : tokens.Pairwise fun t u => t.stop ≤ u.offset)
    (hb : Balanced Token.isSymbol '(' ')' tokens) {i : Nat} {opening : Token}
    (hi : tokens[i]? = some opening) (ho : opening.isSymbol '(' = true) :
    ∃ j closing, ClosedBy source tokens i opening j closing := by
  have hs := split_at hi
  have hl : (tokens.take i).length = i :=
    List.length_take_of_le (Nat.le_of_lt (List.getElem?_eq_some_iff.mp hi).1)
  rw [hs] at hb
  obtain ⟨inner, closing, after, hr, hc, hin⟩ :=
    hb.exists_closing Token.isSymbol_unambiguous (by decide) ho
  rw [hr] at hs
  rw [hs] at hw hp
  have hclosed := closedBy_of_append hw hp hin hc
  rw [← hs, hl] at hclosed
  exact ⟨_, closing, hclosed⟩

/-- A list that opens in tokens whose parentheses match is read. -/
theorem exists_parenthesized {tokens rest : List Token} {opening : Token}
    (hb : Balanced Token.isSymbol '(' ')' tokens) (hs : opening :: rest <:+ tokens)
    (ho : opening.isSymbol '(' = true) (source : Text) :
    ∃ list, parenthesized source opening rest = .ok list := by
  obtain ⟨front, rfl⟩ := hs
  obtain ⟨inner, closing, after, rfl, hc, hi⟩ :=
    hb.exists_closing Token.isSymbol_unambiguous (by decide) ho
  exact ⟨_, parenthesized_eq source opening (balanced_parens_iff.mp hi) hc after⟩

end Run

end Bindery

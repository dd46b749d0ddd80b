import Bindery.Fragment
import Bindery.Proofs.Basic.Lists
import Bindery.Proofs.Place.Basic
import Mathlib.Data.List.Forall2

namespace Bindery

/-- A way in which two places can lie, which walking over the same characters keeps. -/
structure Displacement where
  Rel : Position → Position → Prop
  next : ∀ {p q : Position} (c : Char), Rel p q → Rel (p.next c) (q.next c)

namespace Displacement

/-- The second place is `n` lines further down. -/
def down (n : Nat) : Displacement where
  Rel p q := q = p.down n
  next c h := by rw [h, Position.next_down]

def anywhere : Displacement where
  Rel _ _ := True
  next _ _ := trivial

theorem advance (d : Displacement) {p q : Position} (h : d.Rel p q) (t : Text) :
    d.Rel (p.advance t) (q.advance t) := by
  induction t generalizing p q with
  | nil => exact h
  | cons c t ih => exact ih (d.next c h)

end Displacement

/-- Two errors that differ in their places only. -/
inductive ParseError.Alike (d : Displacement) : ParseError → ParseError → Prop
  | unterminated {construct : Construct} {p q : Position} {quoted : Text} : d.Rel p q →
      Alike d (.unterminated construct p quoted) (.unterminated construct q quoted)
  | unbalanced {p q : Position} {quoted : Text} : d.Rel p q →
      Alike d (.unbalanced p quoted) (.unbalanced q quoted)
  | malformed {cause : Malformation} {p q : Position} {quoted : Text} : d.Rel p q →
      Alike d (.malformed cause p quoted) (.malformed cause q quoted)

/-- Two readings that succeed with related results or fail with errors that are alike. -/
inductive Agree {α β : Type} (d : Displacement) (S : α → β → Prop) :
    Except ParseError α → Except ParseError β → Prop
  | ok {a : α} {b : β} : S a b → Agree d S (.ok a) (.ok b)
  | error {e e' : ParseError} : e.Alike d e' → Agree d S (.error e) (.error e')

section Agree

variable {α β γ δ : Type} {d : Displacement} {S : α → β → Prop} {T : γ → δ → Prop}

theorem Agree.bind {x : Except ParseError α} {y : Except ParseError β}
    {f : α → Except ParseError γ} {g : β → Except ParseError δ} (h : Agree d S x y)
    (hk : ∀ a b, S a b → Agree d T (f a) (g b)) : Agree d T (x >>= f) (y >>= g) := by
  cases h with
  | ok hab => exact hk _ _ hab
  | error he => exact .error he

theorem Agree.imp {S' : α → β → Prop} {x : Except ParseError α} {y : Except ParseError β}
    (h : Agree d S x y) (hs : ∀ a b, S a b → S' a b) : Agree d S' x y := by
  cases h with
  | ok hab => exact .ok (hs _ _ hab)
  | error he => exact .error he

theorem Agree.map {x : Except ParseError α} {y : Except ParseError β} {f : α → γ} {g : β → δ}
    (h : Agree d S x y) (hk : ∀ {a b}, S a b → T (f a) (g b)) : Agree d T (x.map f) (y.map g) := by
  cases h with
  | ok hab => exact .ok (hk hab)
  | error he => exact .error he

theorem Agree.ite {p : Prop} [Decidable p] {x x' : Except ParseError α}
    {y y' : Except ParseError β} (hx : Agree d S x y) (hy : Agree d S x' y') :
    Agree d S (if p then x else x') (if p then y else y') := by
  split
  · exact hx
  · exact hy

theorem Agree.mapM {f : α → Except ParseError γ} {g : β → Except ParseError δ} {xs : List α}
    {ys : List β} (h : List.Forall₂ S xs ys) (hk : ∀ a b, S a b → Agree d T (f a) (g b)) :
    Agree d (List.Forall₂ T) (xs.mapM f) (ys.mapM g) := by
  induction h with
  | nil => exact .ok .nil
  | cons hab _ ih =>
    rw [List.mapM_cons, List.mapM_cons]
    apply (hk _ _ hab).bind
    intro c c' hc
    apply ih.bind
    intro cs cs' hcs
    exact .ok (.cons hc hcs)

theorem Agree.lowered {n : Nat} {f : α → β} {x : Except ParseError α} {y : Except ParseError β}
    (h : Agree (.down n) (fun a b => b = f a) x y) : y = lowered n f x := by
  cases h with
  | ok h => exact congrArg Except.ok h
  | error h => cases h with
    | unterminated h => rw [show _ = _ from h]; rfl
    | unbalanced h => rw [show _ = _ from h]; rfl
    | malformed h => rw [show _ = _ from h]; rfl

theorem Agree.exists_ok {x : Except ParseError α} {y : Except ParseError β} (h : Agree d S x y)
    {a : α} (hx : x = .ok a) : ∃ b, y = .ok b ∧ S a b := by
  cases h with
  | ok hab =>
    cases hx
    exact ⟨_, rfl, hab⟩
  | error _ => cases hx

end Agree

/-- Two tokens that differ in their places only. -/
structure Token.Alike (d : Displacement) (t u : Token) : Prop where
  kind : t.kind = u.kind
  text : t.text = u.text
  offset : t.offset = u.offset
  position : d.Rel t.position u.position

namespace Cursor

variable {d : Displacement} {p q : Position}

theorem tokens_alike (h : d.Rel p q) (rest : Text) (offset : Nat) :
    Agree d (List.Forall₂ (Token.Alike d)) (tokens ⟨rest, offset, p⟩)
      (tokens ⟨rest, offset, q⟩) := by
  induction hn : rest.length using Nat.strongRecOn generalizing rest offset p q with
  | ind n ih =>
    cases rest with
    | nil =>
      rw [tokens_finished rfl, tokens_finished rfl]
      exact .ok .nil
    | cons c rest =>
      cases hl : lexeme c rest with
      | ok read =>
        obtain ⟨kind, k⟩ := read
        have hs (r : Position) : step ⟨c :: rest, offset, r⟩ =
            .token ⟨kind, c :: rest.take k, offset, r⟩
              (advance ⟨c :: rest, offset, r⟩ (k + 1)) := by
          simp only [step, hl]
        rw [tokens_token (hs p), tokens_token (hs q)]
        apply (ih _ (hn ▸ step_token_shorter (hs p)) (d.advance h _) _ _ rfl).map
        exact .cons ⟨rfl, rfl, rfl, h⟩
      | error failure =>
        obtain ⟨construct, k⟩ := failure
        have hs (r : Position) : ∃ next, step ⟨c :: rest, offset, r⟩ =
            .fault (.unterminated construct r (snippet (c :: rest))) next := by
          simp only [step, hl]
          exact ⟨_, rfl⟩
        obtain ⟨_, hp⟩ := hs p
        obtain ⟨_, hq⟩ := hs q
        rw [tokens_fault hp, tokens_fault hq]
        exact .error (.unterminated h)

end Cursor

theorem significantTokens_alike {d : Displacement} {p q : Position} (h : d.Rel p q)
    (source : Text) :
    Agree d (List.Forall₂ (Token.Alike d)) (significantTokens source p)
      (significantTokens source q) := by
  apply (Cursor.tokens_alike h source 0).bind
  intro ts us hts
  apply Agree.ok
  apply List.rel_filter _ hts
  intro t u htu
  simp only [Token.isTrivia, htu.kind]

/-- Two fragments that differ in their places only. -/
structure Fragment.Alike (d : Displacement) (f g : Fragment) : Prop where
  text : f.text = g.text
  position : d.Rel f.position g.position

namespace Fragment

variable {d : Displacement}

theorem cut_alike {origin origin' : Position} (ho : d.Rel origin origin') (quoted : Text)
    {here here' : Position} (h : d.Rel here here') (nesting : Nesting) (t : Text) :
    Agree d Eq (cut origin quoted here nesting t) (cut origin' quoted here' nesting t) := by
  fun_induction cut origin quoted here nesting t generalizing here' with
  | case1 here nesting ht =>
    rw [cut, if_pos ht]
    exact .ok rfl
  | case2 here nesting ht =>
    rw [cut, if_neg ht]
    exact .error (.unbalanced ho)
  | case3 here nesting c rest hc ih =>
    rw [cut, if_pos hc]
    apply (ih (d.next c h)).bind
    rintro pieces _ rfl
    exact .ok rfl
  | case4 here nesting c rest hc construct hq =>
    rw [cut, if_neg hc, hq]
    exact .error (.unterminated h)
  | case5 here nesting c rest hc k hq hn =>
    rw [cut, if_neg hc, hq]
    simp only [hn]
    exact .error (.unbalanced h)
  | case6 here nesting c rest hc k hq inner hn front =>
    rename_i ih
    rw [cut, if_neg hc, hq]
    simp only [hn]
    apply (ih (d.advance h front)).bind
    rintro pieces _ rfl
    exact .ok rfl

theorem ofPieces_alike {here here' : Position} (h : d.Rel here here') (pieces : List Text) :
    List.Forall₂ (Alike d) (ofPieces here pieces) (ofPieces here' pieces) := by
  induction pieces generalizing here here' with
  | nil => exact .nil
  | cons piece pieces ih =>
    apply List.rel_append _ (ih (d.advance h _))
    unfold ofPiece?
    split
    · exact .nil
    · exact .cons ⟨rfl, d.advance h _⟩ .nil

end Fragment

theorem splitTopLevel_alike {d : Displacement} {origin origin' : Position}
    (h : d.Rel origin origin') (list : Text) :
    Agree d (List.Forall₂ (Fragment.Alike d)) (splitTopLevel list origin)
      (splitTopLevel list origin') := by
  apply (Fragment.cut_alike h _ h _ list).bind
  rintro pieces _ rfl
  exact .ok (Fragment.ofPieces_alike h pieces)

end Bindery

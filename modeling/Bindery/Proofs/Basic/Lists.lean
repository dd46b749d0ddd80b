import Bindery.Text.Basic
import Mathlib.Data.List.Forall2

namespace Bindery

theorem zip_map_zip {α β γ : Type} {xs : List α} {ys : List β} (h : xs.length ≤ ys.length)
    (f : α × β → γ) : xs.zip ((xs.zip ys).map f) = (xs.zip ys).map fun x => (x.1, f x) := by
  have hf := List.map_fst_zip h
  rw [← List.zip_map', hf]

theorem map_fst_of_zip {α β γ : Type} {xs : List α} {ys : List β} (h : xs.length ≤ ys.length)
    (f : α → γ) : (xs.zip ys).map (fun x => f x.1) = xs.map f := by
  have hf := congrArg (List.map f) (List.map_fst_zip h)
  rwa [List.map_map] at hf

theorem map_snd_of_zip {α β γ : Type} {xs : List α} {ys : List β} (h : ys.length ≤ xs.length)
    (f : β → γ) : (xs.zip ys).map (fun x => f x.2) = ys.map f := by
  have hf := congrArg (List.map f) (List.map_snd_zip h)
  rwa [List.map_map] at hf

theorem map_snd_zip_eq_take {α β : Type} (xs : List α) (ys : List β) :
    (xs.zip ys).map Prod.snd = ys.take xs.length := by
  induction xs generalizing ys with
  | nil => rfl
  | cons x xs ih =>
    cases ys with
    | nil => rfl
    | cons y ys => exact congrArg (y :: ·) (ih ys)

theorem zipIdx_map_zip {α β γ : Type} (xs : List α) (ys : List β) (k : Nat)
    (g : (α × Nat) × β → γ) :
    (((xs.zipIdx k).zip ys).map g).zipIdx k =
      ((xs.zipIdx k).zip ys).map fun z => (g z, z.1.2) := by
  induction xs generalizing ys k with
  | nil => rfl
  | cons x xs ih =>
    cases ys with
    | nil => rfl
    | cons y ys =>
      simp only [List.zipIdx_cons, List.zip_cons_cons, List.map_cons]
      rw [ih]

theorem map_eq_of_forall₂ {α β γ : Type} {S : α → β → Prop} {f : α → γ} {g : β → γ} {xs : List α}
    {ys : List β} (h : List.Forall₂ S xs ys) (hf : ∀ a b, S a b → f a = g b) :
    xs.map f = ys.map g := by
  induction h with
  | nil => rfl
  | cons hab _ ih => rw [List.map_cons, List.map_cons, hf _ _ hab, ih]

/-- The entries that have something at their place, one after another with what was made of it. -/
theorem forall₂_zip_filterMap {α β γ : Type} (f : α → β → γ) {p : Nat → Bool} {xs : List α}
    {ys : List (Option β)} {k : Nat}
    (h : ys.map Option.isSome = (xs.zipIdx k).map fun z => p z.2) :
    List.Forall₂ (fun z r => ∃ y, r = f z.1 y) ((xs.zipIdx k).filter fun z => p z.2)
      ((xs.zip ys).filterMap fun z => z.2.map (f z.1)) := by
  induction xs generalizing ys k with
  | nil => exact .nil
  | cons x xs ih =>
    cases ys with
    | nil => cases h
    | cons y ys =>
      rw [List.zipIdx_cons, List.map_cons, List.map_cons, List.cons.injEq] at h
      have hrest := ih h.2
      rw [List.zipIdx_cons, List.zip_cons_cons]
      cases y with
      | none =>
        rw [List.filter_cons_of_neg (by simp [← h.1]), List.filterMap_cons_none rfl]
        exact hrest
      | some y =>
        rw [List.filter_cons_of_pos (by simp [← h.1])]
        exact .cons ⟨y, rfl⟩ hrest

theorem filterMap_sublist {α β : Type} {f g : α → Option β} (h : ∀ x, f x = none ∨ f x = g x)
    (xs : List α) : (xs.filterMap f).Sublist (xs.filterMap g) := by
  induction xs with
  | nil => exact .slnil
  | cons x xs ih =>
    rw [List.filterMap_cons, List.filterMap_cons]
    rcases h x with hx | hx
    · rw [hx]
      cases g x with
      | none => exact ih
      | some y => exact .cons y ih
    · rw [hx]
      cases g x with
      | none => exact ih
      | some y => exact .cons_cons y ih

theorem filterMap_range_getElem? {α : Type} (xs : List α) :
    (List.range xs.length).filterMap (xs[·]?) = xs := by
  induction xs with
  | nil => rfl
  | cons x xs ih =>
    rw [List.length_cons, List.range_succ_eq_map, List.filterMap_cons, List.filterMap_map]
    exact congrArg (x :: ·) ih

theorem filter_key_eq {α : Type} {xs : List α} {key : α → Text} (hn : (xs.map key).Nodup) {x : α}
    (hx : x ∈ xs) : xs.filter (fun y => key y == key x) = [x] := by
  induction xs with
  | nil => cases hx
  | cons first rest ih =>
    obtain ⟨hf, hr⟩ := List.nodup_cons.mp hn
    rcases List.mem_cons.mp hx with rfl | hx
    · have hrest : rest.filter (fun y => key y == key x) = [] := by
        apply List.filter_eq_nil_iff.mpr
        intro y hy he
        exact hf (List.mem_map.mpr ⟨y, hy, beq_iff_eq.mp he⟩)
      rw [List.filter_cons_of_pos (p := fun y => key y == key x) (beq_self_eq_true _), hrest]
    · have hne : ¬ (key first == key x) = true := by
        intro he
        exact hf (List.mem_map.mpr ⟨x, hx, (beq_iff_eq.mp he).symm⟩)
      rw [List.filter_cons_of_neg (p := fun y => key y == key x) hne, ih hr hx]

/-- What stands before an element that a first part lacks includes that part. -/
theorem subset_of_split {α : Type} {xs ys front back : List α} {x : α}
    (h : xs ++ ys = front ++ x :: back) (hx : x ∉ xs) : xs ⊆ front := by
  rcases List.append_eq_append_iff.mp h with ⟨more, rfl, -⟩ | ⟨more, rfl, hm⟩
  · exact List.subset_append_left _ _
  · cases more with
    | nil => simp
    | cons first rest =>
      cases hm
      exact absurd (by simp) hx

theorem infix_flatMap {α : Type} {xs : List α} {f : α → Text} {x : α} (h : x ∈ xs) :
    f x <:+: xs.flatMap f :=
  List.infix_of_mem_flatten (List.mem_map_of_mem h)

end Bindery

import Bindery.Proofs.Order.Counting
import Mathlib.Data.List.Perm.Subperm
import Mathlib.Data.List.Permutation

namespace Bindery.Order

/-- The second list holds the nodes of the first in the places that `σ` tells. -/
structure Renumbers (σ : Nat → Nat) (nodes others : List Node) : Prop where
  injective : Function.Injective σ
  same : ∀ i, others[σ i]? = nodes[i]?

theorem exists_renumbering {nodes others : List Node} (h : nodes.Perm others) :
    ∃ σ, Renumbers σ nodes others := by
  induction h with
  | nil => exact ⟨id, Function.injective_id, fun _ => rfl⟩
  | cons node _ ih =>
    obtain ⟨σ, hσ, hs⟩ := ih
    refine ⟨fun i => if i = 0 then 0 else σ (i - 1) + 1, ?_, ?_⟩
    · intro i j hij
      have hp := @hσ (i - 1) (j - 1)
      dsimp only at hij
      split at hij <;> split at hij <;> omega
    · intro i
      by_cases hi : i = 0
      · simp [hi]
      · simp [hi, List.getElem?_cons, hs]
  | swap a b nodes =>
    refine ⟨fun i => if i = 0 then 1 else if i = 1 then 0 else i, ?_, ?_⟩
    · intro i j hij
      dsimp only at hij
      split at hij <;> split at hij <;> (try split at hij) <;> (try split at hij) <;> omega
    · intro i
      by_cases h0 : i = 0
      · simp [h0]
      · by_cases h1 : i = 1
        · simp [h1]
        · have h2 : i - 1 ≠ 0 := by omega
          simp [h0, h1, h2, List.getElem?_cons]
  | trans _ _ ih₁ ih₂ =>
    obtain ⟨σ, hσ, hs⟩ := ih₁
    obtain ⟨τ, hτ, ht⟩ := ih₂
    exact ⟨τ ∘ σ, hτ.comp hσ, fun i => (ht (σ i)).trans (hs i)⟩

namespace Renumbers

variable {σ : Nat → Nat} {nodes others : List Node}

theorem contains_map (h : Renumbers σ nodes others) (l : List Nat) (i : Nat) :
    (l.map σ).contains (σ i) = l.contains i := by
  rw [Bool.eq_iff_iff, List.contains_iff_mem, List.contains_iff_mem,
    List.mem_map_of_injective h.injective]

theorem nameOf (h : Renumbers σ nodes others) (i : Nat) :
    nameOf others (σ i) = nameOf nodes i := by
  rw [Order.nameOf, h.same, Order.nameOf]

theorem map_nameOf (h : Renumbers σ nodes others) (l : List Nat) :
    (l.map σ).map (Order.nameOf others) = l.map (Order.nameOf nodes) := by
  rw [List.map_map]
  exact List.map_congr_left fun i _ => h.nameOf i

section Distinct

variable (h : Renumbers σ nodes others) (hp : nodes.Perm others)
  (hn : (nodes.map Node.name).Nodup)

include h hp hn

theorem indexOf? (name : Text) : indexOf? others name = (indexOf? nodes name).map σ := by
  have hn' : (others.map Node.name).Nodup := (hp.map Node.name).nodup_iff.mp hn
  cases hi : Order.indexOf? nodes name with
  | none =>
    rw [indexOf?_eq_none_iff, (hp.map Node.name).mem_iff] at hi
    exact indexOf?_eq_none_iff.mpr hi
  | some i =>
    obtain ⟨node, hg, hname⟩ := getElem?_of_indexOf? hi
    exact (indexOf?_eq_some_iff hn').mpr ⟨node, (h.same i).trans hg, hname⟩

theorem targets (i : Nat) : targets others (σ i) = (targets nodes i).map σ := by
  rw [Order.targets, h.same, Order.targets, List.map_filterMap]
  exact congrArg (List.filterMap · _) (funext (h.indexOf? hp hn))

theorem isReady (placed : List Nat) (i : Nat) :
    isReady others (placed.map σ) (σ i) = isReady nodes placed i := by
  rw [Order.isReady, h.targets hp hn, List.all_map, Order.isReady]
  exact congrArg (List.all _) (funext (h.contains_map placed))

theorem find?_isReady (placed waiting : List Nat) :
    (waiting.map σ).find? (Order.isReady others (placed.map σ)) =
      (waiting.find? (Order.isReady nodes placed)).map σ := by
  rw [List.find?_map]
  exact congrArg (fun p => (waiting.find? p).map σ) (funext (h.isReady hp hn placed))

theorem place (placed waiting : List Nat) :
    place others (placed.map σ) (waiting.map σ) =
      ((place nodes placed waiting).1.map σ, (place nodes placed waiting).2.map σ) := by
  fun_induction Order.place nodes placed waiting with
  | case1 placed waiting i hf _ ih =>
    -- The first node that is ready in one numbering is the first one in the other.
    have hs := h.find?_isReady hp hn placed waiting
    rw [hf] at hs
    rw [place_some hs, ← List.map_erase h.injective, ← List.map_singleton, ← List.map_append]
    exact ih
  | case2 placed waiting hf =>
    have hs := h.find?_isReady hp hn placed waiting
    rw [hf] at hs
    exact place_none hs

/-- Both lists are put in the order of the same names, and no name comes twice. -/
theorem byName : byName others = (byName nodes).map σ := by
  have hrange : ((List.range nodes.length).map σ).Perm (List.range others.length) := by
    apply List.Subperm.perm_of_length_le
    · apply (List.nodup_range.map h.injective).subperm
      intro j hj
      obtain ⟨i, hi, rfl⟩ := List.mem_map.mp hj
      have hg := (h.same i).trans (List.getElem?_eq_getElem (List.mem_range.mp hi))
      exact List.mem_range.mpr (List.getElem?_eq_some_iff.mp hg).1
    · simp [hp.length_eq]
  have hperm := ((byName_perm nodes).map σ).trans hrange
  have hn' : (others.map Node.name).Nodup := (hp.map Node.name).nodup_iff.mp hn
  have hsorted (nodes : List Node) : (Order.byName nodes).Pairwise fun i j =>
      ¬ Order.nameOf nodes j < Order.nameOf nodes i :=
    (byName_sorted nodes).imp not_lt_of_precedes
  apply List.Perm.eq_of_pairwise _ (hsorted others) _ ((byName_perm others).trans hperm.symm)
  · intro i j hi hj hij hji
    have hi := List.mem_range.mp ((byName_perm others).mem_iff.mp hi)
    have hj := List.mem_range.mp (hperm.mem_iff.mp hj)
    have he := List.le_antisymm (List.not_lt.mp hij) (List.not_lt.mp hji)
    rw [nameOf_of_getElem? (List.getElem?_eq_getElem hi),
      nameOf_of_getElem? (List.getElem?_eq_getElem hj)] at he
    exact index_unique hn' (List.getElem?_eq_getElem hi) (List.getElem?_eq_getElem hj) he
  · rw [List.pairwise_map]
    exact (hsorted nodes).imp fun hij => by rwa [h.nameOf, h.nameOf]

theorem blocker? (stuck : List Nat) (i : Nat) :
    blocker? others (stuck.map σ) (σ i) = (blocker? nodes stuck i).map σ := by
  rw [Order.blocker?, h.targets hp hn, List.find?_map, Order.blocker?]
  exact congrArg (fun p => (List.find? p _).map σ) (funext (h.contains_map stuck))

theorem walk (stuck : List Nat) (n : Nat) (path : List Nat) (i : Nat) :
    walk others (stuck.map σ) n (path.map σ) (σ i) = (walk nodes stuck n path i).map σ := by
  induction n generalizing path i with
  | zero => rfl
  | succ n ih =>
    rw [Order.walk, Order.walk, h.contains_map]
    split
    · rw [List.dropWhile_map]
      congr 2
      funext j
      simp [bne, h.injective.eq_iff]
    · rw [h.blocker? hp hn]
      cases Order.blocker? nodes stuck i with
      | none => simp
      | some next =>
        have hn := ih (path ++ [i]) next
        rw [List.map_append] at hn
        exact hn

theorem cycle (stuck : List Nat) : cycle others (stuck.map σ) = cycle nodes stuck := by
  have hf : (fun i => Order.indexOf? others (Order.nameOf others i) == some i) ∘ σ =
      fun i => Order.indexOf? nodes (Order.nameOf nodes i) == some i := by
    funext i
    rw [Function.comp_apply, h.nameOf, h.indexOf? hp hn, ← Option.map_some, Bool.eq_iff_iff,
      beq_iff_eq, beq_iff_eq, (Option.map_injective h.injective).eq_iff]
  rw [Order.cycle, List.find?_map, hf, Order.cycle, ← hp.length_eq]
  cases stuck.find? fun i => Order.indexOf? nodes (Order.nameOf nodes i) == some i with
  | none => rfl
  | some start =>
    have hw := h.walk hp hn stuck (nodes.length + 1) [] start
    exact (congrArg (List.map _) hw).trans (h.map_nameOf _)

theorem sort : sort others = (sort nodes).map (List.map σ) := by
  have hs := h.place hp hn [] (Order.byName nodes)
  rw [List.map_nil, ← h.byName hp hn] at hs
  rw [sort_eq_place, hs, sort_eq_place]
  simp only [List.map_eq_nil_iff]
  split
  · rfl
  · exact congrArg (Except.error ∘ Text.sorted) (h.cycle hp hn _)

end Distinct

end Renumbers

/--
The order of nodes with distinct names does not depend on the order in which they are given: every
permutation of them is sorted into the same names, or fails with the same cycle.
-/
theorem sort_names_of_perm {nodes others : List Node} (hp : nodes.Perm others)
    (hn : (nodes.map Node.name).Nodup) :
    (sort nodes).map (List.map (nameOf nodes)) = (sort others).map (List.map (nameOf others)) := by
  obtain ⟨σ, h⟩ := exists_renumbering hp
  rw [h.sort hp hn]
  cases sort nodes with
  | error names => rfl
  | ok order => exact congrArg Except.ok (h.map_nameOf order).symm

/-- Two cycles, of which the one with the smallest name is reported, behind a node on none. -/
def twoCycles : List Node :=
  [⟨"Root", ["Edge", "Tree"]⟩, ⟨"Tree", ["Tree"]⟩, ⟨"Node", ["Edge"]⟩, ⟨"Leaf", []⟩,
    ⟨"Edge", ["Node", "Leaf"]⟩]

theorem sort_names_of_perm_two_cycles :
    twoCycles.Perm twoCycles.reverse ∧ (twoCycles.map Node.name).Nodup ∧
      (sort twoCycles.reverse).map (List.map (nameOf twoCycles.reverse)) =
        .error ["Edge", "Node"] := by
  have hp : twoCycles.Perm twoCycles.reverse := (List.reverse_perm twoCycles).symm
  have hn : (twoCycles.map Node.name).Nodup := by decide
  refine ⟨hp, hn, ?_⟩
  rw [← sort_names_of_perm hp hn]
  cbv

end Bindery.Order

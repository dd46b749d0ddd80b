import Bindery.Proofs.Order.Renumbering
import Bindery.Proofs.Text.Sorted

namespace Bindery.Order

def DependsOn (nodes : List Node) (i j : Nat) : Prop :=
  ∃ a b, nodes[i]? = some a ∧ nodes[j]? = some b ∧ b.name ∈ a.dependencies

/-- A node that can be placed next: it waits, and all nodes that it depends on have been placed. -/
structure Available (nodes : List Node) (placed : List Nat) (i : Nat) : Prop where
  node : i < nodes.length
  waits : i ∉ placed
  supplied : ∀ j, DependsOn nodes i j → j ∈ placed

/-- Every node is placed once, when it is available, and with the smallest name of all that are. -/
structure Greedy (nodes : List Node) (order : List Nat) : Prop where
  perm : order.Perm (List.range nodes.length)
  dependencies_first : ∀ front i back, order = front ++ i :: back →
    ∀ j, DependsOn nodes i j → j ∈ front
  smallest_first : ∀ front i back, order = front ++ i :: back →
    ∀ j, Available nodes front j → j ≠ i → nameOf nodes i < nameOf nodes j

variable {nodes : List Node} {placed waiting order : List Nat}

theorem mem_targets_iff (hn : (nodes.map Node.name).Nodup) {i j : Nat} :
    j ∈ targets nodes i ↔ DependsOn nodes i j := by
  rw [targets, List.mem_filterMap]
  constructor
  · rintro ⟨name, hd, hj⟩
    obtain ⟨b, hb, rfl⟩ := getElem?_of_indexOf? hj
    rw [Text.mem_sortedSet] at hd
    cases hi : nodes[i]? with
    | none =>
      rw [hi] at hd
      cases hd
    | some a =>
      rw [hi] at hd
      exact ⟨a, b, hi, hb, hd⟩
  · rintro ⟨a, b, hi, hj, hd⟩
    refine ⟨b.name, ?_, (indexOf?_eq_some_iff hn).mpr ⟨b, hj, rfl⟩⟩
    rw [Text.mem_sortedSet, hi]
    exact hd

theorem isReady_iff (hn : (nodes.map Node.name).Nodup) {i : Nat} :
    isReady nodes placed i = true ↔ ∀ j, DependsOn nodes i j → j ∈ placed := by
  rw [isReady, List.all_eq_true]
  constructor
  · intro h j hj
    simpa using h j ((mem_targets_iff hn).mpr hj)
  · intro h j hj
    simpa using h j ((mem_targets_iff hn).mp hj)

theorem name_lt_of_not_lt (hn : (nodes.map Node.name).Nodup) {i j : Nat} (hi : i < nodes.length)
    (hj : j < nodes.length) (hne : j ≠ i) (h : ¬ nameOf nodes j < nameOf nodes i) :
    nameOf nodes i < nameOf nodes j := by
  have hgi := List.getElem?_eq_getElem hi
  have hgj := List.getElem?_eq_getElem hj
  rcases List.le_iff_lt_or_eq.mp (List.not_lt.mp h) with hlt | he
  · exact hlt
  · rw [nameOf_of_getElem? hgi, nameOf_of_getElem? hgj] at he
    exact absurd (index_unique hn hgj hgi he.symm) hne

namespace Queue

theorem available_iff (h : Queue nodes placed waiting) (hn : (nodes.map Node.name).Nodup)
    {i : Nat} : Available nodes placed i ↔ i ∈ waiting ∧ isReady nodes placed i = true := by
  rw [h.mem_iff, isReady_iff hn]
  constructor
  · rintro ⟨hl, hw, hs⟩
    exact ⟨⟨hl, hw⟩, hs⟩
  · rintro ⟨⟨hl, hw⟩, hs⟩
    exact ⟨hl, hw, hs⟩

/-- The node that is found first is available, and no available node has a smaller name. -/
theorem find?_eq_some (h : Queue nodes placed waiting) (hn : (nodes.map Node.name).Nodup) {i : Nat}
    (hf : waiting.find? (isReady nodes placed) = some i) : Available nodes placed i ∧
      ∀ j, Available nodes placed j → j ≠ i → nameOf nodes i < nameOf nodes j := by
  obtain ⟨hr, front, back, rfl, hfront⟩ := List.find?_eq_some_iff_append.mp hf
  have hi := (h.available_iff hn).mpr ⟨by simp, hr⟩
  refine ⟨hi, ?_⟩
  intro j hj hne
  obtain ⟨hm, hready⟩ := (h.available_iff hn).mp hj
  have hb : j ∈ back := by
    rcases List.mem_append.mp hm with hm | hm
    · have := hfront j hm
      rw [hready] at this
      cases this
    · exact (List.mem_cons.mp hm).resolve_left hne
  have hs := (List.pairwise_append.mp h.sorted).2.1
  have hlt := not_lt_of_precedes ((List.pairwise_cons.mp hs).1 j hb)
  exact name_lt_of_not_lt hn hi.node hj.node hne hlt

end Queue

/-- At each place of the list stands the smallest of the nodes that were available there. -/
def SmallestFirst (nodes : List Node) (placed : List Nat) : Prop :=
  ∀ front i back, placed = front ++ i :: back →
    ∀ j, Available nodes front j → j ≠ i → nameOf nodes i < nameOf nodes j

theorem place_smallestFirst (hn : (nodes.map Node.name).Nodup) (hq : Queue nodes placed waiting)
    (h : SmallestFirst nodes placed) : SmallestFirst nodes (place nodes placed waiting).1 := by
  fun_induction place nodes placed waiting with
  | case1 placed waiting i hf _ ih =>
    exact ih (hq.next (List.mem_of_find?_eq_some hf))
      (forall_split_concat h (hq.find?_eq_some hn hf).2)
  | case2 placed waiting hf => exact h

theorem greedy_of_sort (hn : (nodes.map Node.name).Nodup) (h : sort nodes = .ok order) :
    Greedy nodes order := by
  obtain ⟨hperm, hord⟩ := sort_places h
  have hs := place_smallestFirst hn (queue_byName nodes) (by simp [SmallestFirst])
  rw [place_of_sort h] at hs
  refine ⟨hperm, ?_, hs⟩
  intro front i back he j hj
  exact hord front i back he j ((mem_targets_iff hn).mpr hj)

namespace Greedy

theorem find?_next (h : Greedy nodes order) (hn : (nodes.map Node.name).Nodup) {i : Nat}
    {back : List Nat} (he : order = placed ++ i :: back) (hq : Queue nodes placed waiting) :
    waiting.find? (isReady nodes placed) = some i := by
  have hd := h.perm.nodup_iff.mpr List.nodup_range
  have hl : i < nodes.length := List.mem_range.mp (h.perm.mem_iff.mp (by simp [he]))
  have hi : Available nodes placed i := by
    refine ⟨hl, ?_, h.dependencies_first placed i back he⟩
    rw [he] at hd
    exact fun hp => List.disjoint_of_nodup_append hd hp List.mem_cons_self
  obtain ⟨hm, hr⟩ := (hq.available_iff hn).mp hi
  cases hf : waiting.find? (isReady nodes placed) with
  | none => exact absurd hr (List.find?_eq_none.mp hf i hm)
  | some k =>
    obtain ⟨hk, hfirst⟩ := hq.find?_eq_some hn hf
    by_cases hne : k = i
    · rw [hne]
    · have hik := h.smallest_first placed i back he k hk hne
      have hki := hfirst i hi (Ne.symm hne)
      exact absurd (List.lt_trans hik hki) (List.lt_irrefl _)

theorem place_eq (h : Greedy nodes order) (hn : (nodes.map Node.name).Nodup) {back : List Nat}
    (he : order = placed ++ back) (hq : Queue nodes placed waiting) :
    place nodes placed waiting = (order, []) := by
  induction back generalizing placed waiting with
  | nil =>
    have hw : waiting = [] := by
      have hlen := hq.perm.length_eq.trans h.perm.length_eq.symm
      rw [he, List.length_append, List.length_append, List.length_nil] at hlen
      exact List.length_eq_zero_iff.mp (Nat.add_left_cancel hlen)
    rw [hw, place_none rfl, he, List.append_nil]
  | cons i back ih =>
    have hf := h.find?_next hn he hq
    rw [place_some hf]
    apply ih
    · rw [he, List.append_assoc]
      rfl
    · exact hq.next (List.mem_of_find?_eq_some hf)

end Greedy

/--
The sort is sound and greedy, and it finds every order of this kind: nodes with distinct names are
sorted into exactly the list that holds each node once, behind all that it depends on, and that at
every step takes the smallest name among the nodes whose dependencies have been placed.
-/
theorem sort_eq_ok_iff_greedy (hn : (nodes.map Node.name).Nodup) :
    sort nodes = .ok order ↔ Greedy nodes order := by
  constructor
  · exact greedy_of_sort hn
  · intro h
    rw [sort_eq_place, h.place_eq hn (List.nil_append order).symm (queue_byName nodes)]
    rfl

/-- Nodes in the wrong order, with a name that belongs to none of them. -/
def purchases : List Node :=
  [⟨"Order", ["User", "Address"]⟩, ⟨"Address", ["Country", "Money"]⟩, ⟨"User", []⟩,
    ⟨"Country", []⟩]

theorem sort_eq_ok_iff_greedy_of_purchases : (purchases.map Node.name).Nodup ∧
    sort purchases = .ok [3, 1, 2, 0] ∧ Greedy purchases [3, 1, 2, 0] := by
  have hn : (purchases.map Node.name).Nodup := by decide
  have hs : sort purchases = .ok [3, 1, 2, 0] := by cbv
  exact ⟨hn, hs, (sort_eq_ok_iff_greedy hn).mp hs⟩

end Bindery.Order

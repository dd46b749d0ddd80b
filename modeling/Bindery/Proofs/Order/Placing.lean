import Bindery.Order
import Bindery.Proofs.Text.Sorted
import Mathlib.Data.List.Nodup
import Mathlib.Data.List.Sort

namespace Bindery.Order

variable {nodes : List Node}

theorem nameOf_of_getElem? {i : Nat} {node : Node} (h : nodes[i]? = some node) :
    nameOf nodes i = node.name := by
  rw [nameOf, h]
  rfl

theorem getElem?_of_indexOf? {name : Text} {i : Nat} (h : indexOf? nodes name = some i) :
    ∃ node, nodes[i]? = some node ∧ node.name = name := by
  have hm := List.mem_of_getLast? h
  rw [List.mem_filter, List.mem_range, beq_iff_eq] at hm
  have hi := List.getElem?_eq_getElem hm.1
  exact ⟨_, hi, nameOf_of_getElem? hi ▸ hm.2⟩

theorem indexOf?_eq_none_iff {name : Text} :
    indexOf? nodes name = none ↔ name ∉ nodes.map Node.name := by
  rw [indexOf?, List.getLast?_eq_none_iff, List.filter_eq_nil_iff]
  constructor
  · intro h hm
    obtain ⟨node, hn, rfl⟩ := List.mem_map.mp hm
    obtain ⟨i, hi⟩ := List.mem_iff_getElem?.mp hn
    obtain ⟨hl, _⟩ := List.getElem?_eq_some_iff.mp hi
    exact h i (List.mem_range.mpr hl) (beq_iff_eq.mpr (nameOf_of_getElem? hi))
  · intro h i hi he
    have hg := List.getElem?_eq_getElem (List.mem_range.mp hi)
    apply h
    rw [← beq_iff_eq.mp he, nameOf_of_getElem? hg]
    exact List.mem_map_of_mem (List.mem_of_getElem? hg)

theorem index_unique (hn : (nodes.map Node.name).Nodup) {i j : Nat} {a b : Node}
    (hi : nodes[i]? = some a) (hj : nodes[j]? = some b) (h : a.name = b.name) : i = j := by
  have hi' : (nodes.map Node.name)[i]? = some a.name := by rw [List.getElem?_map, hi]; rfl
  have hj' : (nodes.map Node.name)[j]? = some a.name := by rw [List.getElem?_map, hj, h]; rfl
  exact (List.getElem?_inj (List.getElem?_eq_some_iff.mp hi').1 hn).mp (hi'.trans hj'.symm)

theorem indexOf?_eq_some_iff (hn : (nodes.map Node.name).Nodup) {name : Text} {i : Nat} :
    indexOf? nodes name = some i ↔ ∃ node, nodes[i]? = some node ∧ node.name = name := by
  constructor
  · exact getElem?_of_indexOf?
  · rintro ⟨node, hi, rfl⟩
    cases hx : indexOf? nodes node.name with
    | none =>
      have hm := List.mem_map_of_mem (f := Node.name) (List.mem_of_getElem? hi)
      exact absurd hm (indexOf?_eq_none_iff.mp hx)
    | some j =>
      obtain ⟨other, hj, ho⟩ := getElem?_of_indexOf? hx
      rw [index_unique hn hj hi ho]

/-- What holds at each place of a list and of one more entry behind it holds of the longer list. -/
theorem forall_split_concat {placed : List Nat} {last : Nat} {p : List Nat → Nat → Prop}
    (h : ∀ front i back, placed = front ++ i :: back → p front i) (hl : p placed last) :
    ∀ front i back, placed ++ [last] = front ++ i :: back → p front i := by
  intro front i back he
  rcases List.eq_nil_or_concat back with rfl | ⟨rest, final, rfl⟩
  · obtain ⟨rfl, hi⟩ := List.append_inj' he rfl
    cases hi
    exact hl
  · rw [List.concat_eq_append, ← List.cons_append, ← List.append_assoc] at he
    exact h front i rest (List.append_inj' he rfl).1

/-- Whether all that a node depends on has been placed. -/
def isReady (nodes : List Node) (placed : List Nat) (index : Nat) : Bool :=
  (targets nodes index).all placed.contains

/-- Places the first ready node of `waiting` again and again; the second result is what could not
be placed. -/
def place (nodes : List Node) (placed waiting : List Nat) : List Nat × List Nat :=
  match h : waiting.find? (isReady nodes placed) with
  | some index =>
    have : (waiting.erase index).length < waiting.length := by
      have hm := List.mem_of_find?_eq_some h
      have := List.length_erase_of_mem hm
      have := List.length_pos_of_mem hm
      omega
    place nodes (placed ++ [index]) (waiting.erase index)
  | none => (placed, waiting)
termination_by waiting.length

theorem place_some {placed waiting : List Nat} {i : Nat}
    (h : waiting.find? (isReady nodes placed) = some i) :
    place nodes placed waiting = place nodes (placed ++ [i]) (waiting.erase i) := by
  rw [place]
  split
  · rename_i hf
    rw [h] at hf
    cases hf
    rfl
  · rename_i hf
    rw [h] at hf
    cases hf

theorem place_none {placed waiting : List Nat}
    (h : waiting.find? (isReady nodes placed) = none) :
    place nodes placed waiting = (placed, waiting) := by
  rw [place]
  split
  · rename_i hf
    rw [h] at hf
    cases hf
  · rfl

/-- Each node comes after all that it depends on. -/
def Ordered (nodes : List Node) (placed : List Nat) : Prop :=
  ∀ front index back, placed = front ++ index :: back →
    ∀ target ∈ targets nodes index, target ∈ front

theorem Ordered.concat {placed : List Nat} {index : Nat} (h : Ordered nodes placed)
    (hr : isReady nodes placed index = true) : Ordered nodes (placed ++ [index]) := by
  apply forall_split_concat h
  intro target ht
  rw [isReady, List.all_eq_true] at hr
  simpa using hr target ht

theorem place_ordered {placed : List Nat} (h : Ordered nodes placed) (waiting : List Nat) :
    Ordered nodes (place nodes placed waiting).1 := by
  fun_induction place nodes placed waiting with
  | case1 placed waiting index hf _ ih => exact ih (h.concat (List.find?_some hf))
  | case2 placed waiting hf => exact h

theorem precedes_iff {i j : Nat} : precedes nodes i j = true ↔
    nameOf nodes i < nameOf nodes j ∨ nameOf nodes i = nameOf nodes j ∧ i < j := by
  simp [precedes]

theorem not_lt_of_precedes {i j : Nat} (h : precedes nodes i j = true) :
    ¬ nameOf nodes j < nameOf nodes i := by
  rcases precedes_iff.mp h with h | ⟨h, -⟩
  · exact List.lt_asymm h
  · rw [h]
    exact List.lt_irrefl _

theorem precedes_irrefl (i : Nat) : ¬ precedes nodes i i = true := by
  rw [precedes_iff]
  rintro (h | ⟨-, h⟩)
  · exact List.lt_irrefl _ h
  · exact Nat.lt_irrefl _ h

theorem precedes_trans {i j k : Nat} (hij : precedes nodes i j = true)
    (hjk : precedes nodes j k = true) : precedes nodes i k = true := by
  rw [precedes_iff] at *
  rcases hij with hij | ⟨hij, hlt⟩
  · rcases hjk with hjk | ⟨hjk, -⟩
    · exact .inl (List.lt_trans hij hjk)
    · exact .inl (hjk ▸ hij)
  · rw [hij]
    exact hjk.imp_right fun ⟨hjk, h⟩ => ⟨hjk, Nat.lt_trans hlt h⟩

theorem precedes_of_not {i j : Nat} (hne : i ≠ j) (h : ¬ precedes nodes j i = true) :
    precedes nodes i j = true := by
  rw [precedes_iff] at *
  obtain ⟨hname, hindex⟩ := not_or.mp h
  rcases List.le_iff_lt_or_eq.mp (List.not_lt.mp hname) with hlt | he
  · exact .inl hlt
  · refine .inr ⟨he, ?_⟩
    have hge : ¬ j < i := fun hlt => hindex ⟨he.symm, hlt⟩
    omega

theorem eq_of_precedes {l l' : List Nat} (h : l.Pairwise (precedes nodes · ·))
    (h' : l'.Pairwise (precedes nodes · ·)) (hm : ∀ i, i ∈ l ↔ i ∈ l') : l = l' := by
  have hirrefl : Std.Irrefl fun i j => precedes nodes i j = true := ⟨precedes_irrefl⟩
  have hantisymm : Std.Antisymm fun i j => precedes nodes i j = true :=
    ⟨fun i _ hij hji => absurd (precedes_trans hij hji) (precedes_irrefl i)⟩
  exact h.eq_of_mem_iff h' hm

theorem byName_perm (nodes : List Node) : (byName nodes).Perm (List.range nodes.length) :=
  List.mergeSort_perm ..

theorem byName_sorted (nodes : List Node) : (byName nodes).Pairwise (precedes nodes · ·) := by
  have hle (i j : Nat) : (!precedes nodes j i) = true ↔ ¬ precedes nodes j i = true := by simp
  have hs := @List.pairwise_mergeSort _ (fun i j => !precedes nodes j i)
    (by
      intro i j k hij hjk
      rw [hle] at *
      intro hki
      by_cases he : j = k
      · exact hij (he ▸ hki)
      · exact hij (precedes_trans (precedes_of_not he hjk) hki))
    (by
      intro i j
      rw [Bool.or_eq_true, hle, hle, ← not_and_or]
      exact fun ⟨hji, hij⟩ => precedes_irrefl i (precedes_trans hij hji))
    (List.range nodes.length)
  have hn : (byName nodes).Nodup := (byName_perm nodes).nodup_iff.mpr List.nodup_range
  apply List.Pairwise.imp₂ _ hn hs
  intro i j hne hij
  exact precedes_of_not hne ((hle i j).mp hij)

/-- What waits is in the order of names, and is all that has not been placed. -/
structure Queue (nodes : List Node) (placed waiting : List Nat) : Prop where
  perm : (placed ++ waiting).Perm (List.range nodes.length)
  sorted : waiting.Pairwise (precedes nodes · ·)

theorem queue_byName (nodes : List Node) : Queue nodes [] (byName nodes) :=
  ⟨byName_perm nodes, byName_sorted nodes⟩

namespace Queue

variable {placed waiting : List Nat}

theorem next (h : Queue nodes placed waiting) {i : Nat} (hi : i ∈ waiting) :
    Queue nodes (placed ++ [i]) (waiting.erase i) where
  perm := by
    apply List.Perm.trans _ h.perm
    rw [List.append_assoc]
    exact (List.perm_cons_erase hi).symm.append_left placed
  sorted := h.sorted.sublist List.erase_sublist

theorem mem_iff (h : Queue nodes placed waiting) {i : Nat} :
    i ∈ waiting ↔ i < nodes.length ∧ i ∉ placed := by
  have hd := h.perm.nodup_iff.mpr List.nodup_range
  have hm := h.perm.mem_iff (a := i)
  rw [List.mem_append, List.mem_range] at hm
  constructor
  · intro hw
    exact ⟨hm.mp (.inr hw), fun hp => (List.disjoint_of_nodup_append hd) hp hw⟩
  · rintro ⟨hl, hp⟩
    exact (hm.mpr hl).resolve_left hp

theorem place (h : Queue nodes placed waiting) :
    Queue nodes (place nodes placed waiting).1 (place nodes placed waiting).2 := by
  fun_induction Order.place nodes placed waiting with
  | case1 placed waiting i hf _ ih => exact ih (h.next (List.mem_of_find?_eq_some hf))
  | case2 placed waiting hf => exact h

end Queue

end Bindery.Order

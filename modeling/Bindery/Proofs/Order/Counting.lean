import Bindery.Proofs.Order.Placing

namespace Bindery.Order

variable {nodes : List Node} {p : Progress} {placed waiting due rest : List Nat} {i j index : Nat}

theorem lt_length_of_mem_targets (h : j ∈ targets nodes i) : j < nodes.length := by
  obtain ⟨name, -, hn⟩ := List.mem_filterMap.mp h
  obtain ⟨node, hg, -⟩ := getElem?_of_indexOf? hn
  exact (List.getElem?_eq_some_iff.mp hg).1

theorem nodup_targets (nodes : List Node) (i : Nat) : (targets nodes i).Nodup := by
  apply List.Nodup.filterMap _ (Text.nodup_sortedSet _)
  intro s t j hs ht
  obtain ⟨a, ha, rfl⟩ := getElem?_of_indexOf? hs
  obtain ⟨b, hb, rfl⟩ := getElem?_of_indexOf? ht
  cases ha.symm.trans hb
  rfl

theorem dependents_getD (hi : index < nodes.length) : (dependents nodes).getD index [] =
    (List.range nodes.length).filter fun i => (targets nodes i).contains index := by
  have hedges : ∀ i ∈ List.range nodes.length,
      (((List.range nodes.length).map (targets nodes)).getD i []).contains index =
        (targets nodes i).contains index := by
    intro i hi
    simp [List.mem_range.mp hi]
  rw [← List.filter_congr hedges]
  simp [dependents, hi]

theorem lt_length_of_mem_dependents (hi : index < nodes.length)
    (hj : j ∈ (dependents nodes).getD index []) : j < nodes.length := by
  rw [dependents_getD hi] at hj
  exact List.mem_range.mp (List.mem_filter.mp hj).1

theorem count_dependents (hi : index < nodes.length) (hj : j < nodes.length) :
    ((dependents nodes).getD index []).count j = (targets nodes j).count index := by
  rw [dependents_getD hi, (List.nodup_range.filter _).count, (nodup_targets nodes j).count]
  simp [hj]

/-- The number of nodes that a node depends on and that have not been placed. -/
def missing (nodes : List Node) (placed : List Nat) (i : Nat) : Nat :=
  (targets nodes i).countP fun j => !placed.contains j

theorem missing_eq_zero_iff : missing nodes placed i = 0 ↔ isReady nodes placed i = true := by
  simp [missing, isReady]

theorem missing_concat (h : index ∉ placed) (i : Nat) : missing nodes placed i =
    missing nodes (placed ++ [index]) i + (targets nodes i).count index := by
  unfold missing
  induction targets nodes i with
  | nil => rfl
  | cons j rest ih =>
    rw [List.countP_cons, List.countP_cons, List.count_cons, ih]
    by_cases hj : j = index <;> grind

theorem mem_insertByName : i ∈ insertByName nodes index rest ↔ i = index ∨ i ∈ rest := by
  induction rest with
  | nil => simp [insertByName]
  | cons j rest ih =>
    unfold insertByName
    split
    · simp
    · split
      · rename_i he
        simp [he]
      · simp [ih, or_left_comm]

theorem pairwise_insertByName (index : Nat) (h : rest.Pairwise (precedes nodes · ·)) :
    (insertByName nodes index rest).Pairwise (precedes nodes · ·) := by
  induction rest with
  | nil => simp [insertByName]
  | cons j rest ih =>
    obtain ⟨hj, hr⟩ := List.pairwise_cons.mp h
    unfold insertByName
    split
    · rename_i hp
      refine List.pairwise_cons.mpr ⟨?_, h⟩
      intro k hk
      rcases List.mem_cons.mp hk with rfl | hk
      · exact hp
      · exact precedes_trans hp (hj k hk)
    · split
      · exact h
      · rename_i hp hne
        refine List.pairwise_cons.mpr ⟨?_, ih hr⟩
        intro k hk
        rcases mem_insertByName.mp hk with rfl | hk
        · exact precedes_of_not (Ne.symm hne) hp
        · exact hj k hk

/-- The counters while nodes are placed. Those of the nodes in `due` have still to be lowered, once
for each time that the node stands there. -/
structure Counts (nodes : List Node) (p : Progress) (due : List Nat) : Prop where
  pending : ∀ i < nodes.length, p.pending[i]? = some (missing nodes p.placed i + due.count i)
  settled : ∀ i ∈ p.placed, p.pending[i]? = some 0
  sorted : p.ready.Pairwise (precedes nodes · ·)
  mem_ready : ∀ i, i ∈ p.ready ↔ i < nodes.length ∧ i ∉ p.placed ∧ p.pending[i]? = some 0

theorem counts_start (nodes : List Node) : Counts nodes (start nodes) [] where
  pending i hi := by simp [start, missing, hi]
  settled := by simp [start]
  sorted := (byName_sorted nodes).filter _
  mem_ready i := by
    rw [start, List.mem_filter, (byName_perm nodes).mem_iff, List.mem_range]
    apply and_congr_right
    intro hi
    simp [hi]

theorem release_of_pending {n : Nat} (h : p.pending[j]? = some (n + 1)) :
    release nodes p j = ⟨p.placed, p.pending.set j n,
      if n = 0 then insertByName nodes j p.ready else p.ready⟩ := by
  rw [release, h]

theorem placed_foldl_release (nodes : List Node) (p : Progress) (due : List Nat) :
    (due.foldl (release nodes) p).placed = p.placed := by
  induction due generalizing p with
  | nil => rfl
  | cons j due ih =>
    refine (ih _).trans ?_
    unfold release
    split <;> rfl

theorem placed_advance (nodes : List Node) (table : List (List Nat)) (p : Progress) (index : Nat)
    (rest : List Nat) : (advance nodes table p index rest).placed = p.placed ++ [index] :=
  placed_foldl_release ..

namespace Counts

theorem pending_due (h : Counts nodes p (j :: due)) (hj : j < nodes.length) :
    p.pending[j]? = some (missing nodes p.placed j + due.count j + 1) := by
  rw [h.pending j hj, List.count_cons_self, Nat.add_assoc]

theorem release (h : Counts nodes p (j :: due)) (hj : j < nodes.length) :
    Counts nodes (release nodes p j) due := by
  have hp := h.pending_due hj
  generalize hn : missing nodes p.placed j + due.count j = n at hp
  -- The node itself waits for `n` nodes now, and for all other nodes nothing changes.
  have hset (i : Nat) : (p.pending.set j n)[i]? = if j = i then some n else p.pending[i]? := by
    rw [List.getElem?_set, if_pos (List.getElem?_eq_some_iff.mp hp).1]
  have hplaced : j ∉ p.placed := by
    intro hm
    cases (h.settled j hm).symm.trans hp
  have hready : j ∉ p.ready := by
    intro hm
    cases ((h.mem_ready j).mp hm).2.2.symm.trans hp
  rw [release_of_pending hp]
  refine ⟨?_, ?_, ?_, ?_⟩
  · intro i hi
    rw [hset]
    split
    · rename_i he
      rw [← he, hn]
    · rename_i hne
      rw [h.pending i hi, List.count_cons_of_ne hne]
  · intro i hi
    rw [hset, if_neg]
    · exact h.settled i hi
    · rintro rfl
      exact hplaced hi
  · split
    · exact pairwise_insertByName j h.sorted
    · exact h.sorted
  · intro i
    rw [hset]
    by_cases he : j = i
    · subst he
      by_cases hz : n = 0
      · simp [hz, mem_insertByName, hj, hplaced]
      · simp [hz, hready]
    · have hm : i ∈ (if n = 0 then insertByName nodes j p.ready else p.ready) ↔ i ∈ p.ready := by
        split
        · simp [mem_insertByName, Ne.symm he]
        · rfl
      rw [hm, if_neg he]
      exact h.mem_ready i

theorem foldl_release (h : Counts nodes p due) (hd : ∀ j ∈ due, j < nodes.length) :
    Counts nodes (due.foldl (Order.release nodes) p) [] := by
  induction due generalizing p with
  | nil => exact h
  | cons j due ih =>
    obtain ⟨hj, hd⟩ := List.forall_mem_cons.mp hd
    exact ih (h.release hj) hd

/-- When a node has been placed, the counters of all that depend on it are due. -/
theorem concat (h : Counts nodes p []) (hr : p.ready = index :: rest) :
    Counts nodes ⟨p.placed ++ [index], p.pending, rest⟩ ((dependents nodes).getD index []) := by
  have hs := h.sorted
  rw [hr] at hs
  obtain ⟨hfirst, hs⟩ := List.pairwise_cons.mp hs
  obtain ⟨hlt, hplaced, hzero⟩ := (h.mem_ready index).mp (by simp [hr])
  refine ⟨?_, ?_, hs, ?_⟩
  · intro i hi
    rw [h.pending i hi, missing_concat hplaced i, count_dependents hlt hi, List.count_nil]
    rfl
  · intro i hi
    rcases List.mem_append.mp hi with hi | hi
    · exact h.settled i hi
    · exact List.mem_singleton.mp hi ▸ hzero
  · intro i
    have hm := h.mem_ready i
    have hne : i ∈ rest → i ≠ index := by
      rintro hi rfl
      exact precedes_irrefl _ (hfirst _ hi)
    rw [hr, List.mem_cons] at hm
    simp only [List.mem_append, List.mem_singleton, not_or]
    constructor
    · intro hi
      obtain ⟨hl, hp, hz⟩ := hm.mp (.inr hi)
      exact ⟨hl, ⟨hp, hne hi⟩, hz⟩
    · rintro ⟨hl, ⟨hp, hi⟩, hz⟩
      exact (hm.mpr ⟨hl, hp, hz⟩).resolve_left hi

theorem advance (h : Counts nodes p []) (hr : p.ready = index :: rest) :
    Counts nodes (advance nodes (dependents nodes) p index rest) [] := by
  have hlt := ((h.mem_ready index).mp (by simp [hr])).1
  exact (h.concat hr).foldl_release fun _ hj => lt_length_of_mem_dependents hlt hj

theorem isReady_iff (h : Counts nodes p []) (hi : i < nodes.length) :
    isReady nodes p.placed i = true ↔ p.pending[i]? = some 0 := by
  rw [h.pending i hi, ← missing_eq_zero_iff]
  simp

theorem ready_eq (h : Counts nodes p []) (hq : Queue nodes p.placed waiting) :
    p.ready = waiting.filter (isReady nodes p.placed) := by
  apply eq_of_precedes h.sorted (hq.sorted.filter _)
  intro i
  rw [h.mem_ready, List.mem_filter, hq.mem_iff, and_assoc]
  refine and_congr_right fun hi => and_congr_right fun _ => ?_
  exact (h.isReady_iff hi).symm

theorem stuck_eq (h : Counts nodes p []) (hq : Queue nodes p.placed waiting) (hr : p.ready = []) :
    p.stuck nodes = waiting := by
  apply eq_of_precedes ((byName_sorted nodes).filter _) hq.sorted
  intro i
  rw [List.mem_filter, (byName_perm nodes).mem_iff, List.mem_range, hq.mem_iff]
  apply and_congr_right
  intro hi
  have hz : p.pending[i]? = some 0 ↔ i ∈ p.placed := by
    refine ⟨?_, h.settled i⟩
    intro hz
    by_contra hp
    have hm := (h.mem_ready i).mpr ⟨hi, hp, hz⟩
    rw [hr] at hm
    cases hm
  rw [← hz, List.getD_eq_getElem?_getD, h.pending i hi]
  simp [Nat.pos_iff_ne_zero]

end Counts

theorem run_eq_place (h : Counts nodes p []) (hq : Queue nodes p.placed waiting) :
    ((run nodes (dependents nodes) p).placed, (run nodes (dependents nodes) p).stuck nodes) =
      place nodes p.placed waiting := by
  fun_induction run nodes (dependents nodes) p generalizing waiting with
  | case1 p hr =>
    have hf : waiting.find? (isReady nodes p.placed) = none := by
      rw [← List.head?_filter, ← h.ready_eq hq, hr]
      rfl
    rw [place_none hf, h.stuck_eq hq hr]
  | case2 p index rest hr _ ih =>
    have hf : waiting.find? (isReady nodes p.placed) = some index := by
      rw [← List.head?_filter, ← h.ready_eq hq, hr]
      rfl
    have hn := placed_advance nodes (dependents nodes) p index rest
    have hq := hq.next (List.mem_of_find?_eq_some hf)
    rw [← hn] at hq
    rw [ih (h.advance hr) hq, hn, place_some hf]

theorem outcome_eq_place (nodes : List Node) :
    (outcome nodes).placed = (place nodes [] (byName nodes)).1 ∧
      (outcome nodes).stuck nodes = (place nodes [] (byName nodes)).2 := by
  have h : ((outcome nodes).placed, (outcome nodes).stuck nodes) = place nodes [] (byName nodes) :=
    run_eq_place (counts_start nodes) (queue_byName nodes)
  exact ⟨congrArg Prod.fst h, congrArg Prod.snd h⟩

theorem sort_eq_place (nodes : List Node) :
    sort nodes = if (place nodes [] (byName nodes)).2 = [] then
        .ok (place nodes [] (byName nodes)).1
      else .error (Text.sorted (cycle nodes (place nodes [] (byName nodes)).2)) := by
  obtain ⟨hplaced, hstuck⟩ := outcome_eq_place nodes
  have hl := (queue_byName nodes).place.perm.length_eq
  rw [List.length_append, List.length_range] at hl
  have hall : (place nodes [] (byName nodes)).1.length = nodes.length ↔
      (place nodes [] (byName nodes)).2 = [] := by
    rw [← List.length_eq_zero_iff]
    omega
  rw [sort, hplaced, hstuck]
  simp only [hall]

theorem place_of_sort {order : List Nat} (h : sort nodes = .ok order) :
    place nodes [] (byName nodes) = (order, []) := by
  rw [sort_eq_place] at h
  split at h
  · rename_i hs
    cases h
    exact Prod.ext rfl hs
  · cases h

theorem sort_places {order : List Nat} (h : sort nodes = .ok order) :
    order.Perm (List.range nodes.length) ∧ Ordered nodes order := by
  have hp := place_of_sort h
  have hperm := (queue_byName nodes).place.perm
  have hempty : Ordered nodes [] := by simp [Ordered]
  have hord := place_ordered hempty (byName nodes)
  rw [hp, List.append_nil] at hperm
  rw [hp] at hord
  exact ⟨hperm, hord⟩

end Bindery.Order

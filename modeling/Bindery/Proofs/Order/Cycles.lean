import Bindery.Proofs.Order.Greedy
import Mathlib.Data.List.Chain
import Mathlib.Logic.Relation

namespace Bindery.Order

/-- Distinct nodes of which each depends on the next one and the last one on the first. -/
structure IsCycle (nodes : List Node) (ring : List Nat) : Prop where
  nonempty : ring ≠ []
  nodup : ring.Nodup
  closed : List.IsChain (DependsOn nodes) (ring ++ ring.head?.toList)

/-- The node depends on itself, directly or through others. -/
def OnCycle (nodes : List Node) (i : Nat) : Prop :=
  Relation.TransGen (DependsOn nodes) i i

/-- The states of the walk: the path behind it and the node at which it stands. -/
inductive Passes (nodes : List Node) (stuck : List Nat) (start : Nat) : List Nat → Nat → Prop where
  | start : Passes nodes stuck start [] start
  | step {path : List Nat} {i next : Nat} (h : Passes nodes stuck start path i) (hi : i ∉ path)
      (hb : blocker? nodes stuck i = some next) : Passes nodes stuck start (path ++ [i]) next

/-- Nodes of which each depends on one of them. -/
structure Stuck (nodes : List Node) (stuck : List Nat) : Prop where
  node : ∀ i ∈ stuck, i < nodes.length
  blocked : ∀ i ∈ stuck, (blocker? nodes stuck i).isSome

variable {nodes : List Node} {placed waiting order stuck path ring : List Nat}

theorem place_exhausts (nodes : List Node) (placed waiting : List Nat) :
    (place nodes placed waiting).2.find? (isReady nodes (place nodes placed waiting).1) = none := by
  fun_induction place nodes placed waiting with
  | case1 placed waiting i hf _ ih => exact ih
  | case2 placed waiting hf => exact hf

theorem stuck_place (h : Queue nodes placed waiting) :
    Stuck nodes (place nodes placed waiting).2 where
  node i hi := (h.place.mem_iff.mp hi).1
  blocked := by
    intro i hi
    have hr := List.find?_eq_none.mp (place_exhausts nodes placed waiting) i hi
    rw [isReady, Bool.not_eq_true, List.all_eq_false] at hr
    obtain ⟨j, hj, hp⟩ := hr
    rw [blocker?, List.find?_isSome]
    refine ⟨j, hj, ?_⟩
    have hl := lt_length_of_mem_targets hj
    simpa using h.place.mem_iff.mpr ⟨hl, by simpa using hp⟩

theorem stuck_outcome (nodes : List Node) : Stuck nodes ((outcome nodes).stuck nodes) := by
  rw [(outcome_eq_place nodes).2]
  exact stuck_place (queue_byName nodes)

/-- A path of distinct stuck nodes, each of which depends on the next one up to the node where the
walk stands. -/
structure Trail (nodes : List Node) (stuck path : List Nat) (i : Nat) : Prop where
  nodup : path.Nodup
  stuck : path ++ [i] ⊆ stuck
  chain : List.IsChain (DependsOn nodes) (path ++ [i])

namespace Trail

variable {i : Nat}

theorem next (h : Trail nodes stuck path i) (hn : (nodes.map Node.name).Nodup) (hi : i ∉ path)
    {next : Nat} (hb : blocker? nodes stuck i = some next) :
    Trail nodes stuck (path ++ [i]) next where
  nodup := List.nodup_append.mpr ⟨h.nodup, List.nodup_singleton i, by
    rintro j hj k hk rfl
    exact hi (List.mem_singleton.mp hk ▸ hj)⟩
  stuck := by
    have hs : next ∈ stuck := by simpa using List.find?_some hb
    exact List.append_subset.mpr ⟨h.stuck, by simpa using hs⟩
  chain := by
    have hd := (mem_targets_iff hn).mp (List.mem_of_find?_eq_some hb)
    rw [List.append_assoc]
    exact List.isChain_append_cons_cons.mpr ⟨h.chain, hd, .singleton _⟩

theorem length_le (h : Trail nodes stuck path i) (hs : Stuck nodes stuck) :
    path.length ≤ nodes.length := by
  have hsub : path ⊆ List.range nodes.length := by
    intro j hj
    exact List.mem_range.mpr (hs.node j (h.stuck (List.mem_append_left _ hj)))
  have hlen := (h.nodup.subperm hsub).length_le
  rwa [List.length_range] at hlen

/-- From the first visit of a node that comes again the path is a cycle. -/
theorem isCycle (h : Trail nodes stuck path i) (hi : i ∈ path) :
    IsCycle nodes (path.dropWhile (· != i)) := by
  obtain ⟨front, back, rfl, hf⟩ := List.eq_append_cons_of_mem hi
  have hd : (front ++ i :: back).dropWhile (· != i) = i :: back := by
    rw [List.dropWhile_append_of_pos]
    · simp
    · intro j hj
      have hne : j ≠ i := fun he => hf (he ▸ hj)
      simpa using hne
  have hc := h.chain
  rw [List.append_assoc] at hc
  rw [hd]
  exact ⟨by simp, (List.nodup_append.mp h.nodup).2.1, hc.right_of_append⟩

end Trail

theorem Passes.trail {start i : Nat} (h : Passes nodes stuck start path i)
    (hn : (nodes.map Node.name).Nodup) (hm : start ∈ stuck) : Trail nodes stuck path i := by
  induction h with
  | start => exact ⟨.nil, by simpa using hm, .singleton _⟩
  | step _ hi hb ih => exact ih.next hn hi hb

/-- The walk ends where a node comes again, and never for want of a blocker or of steps. -/
theorem exists_walk {start i n : Nat} (hn : (nodes.map Node.name).Nodup) (hs : Stuck nodes stuck)
    (hm : start ∈ stuck) (h : Passes nodes stuck start path i)
    (hl : nodes.length < n + path.length) :
    ∃ trail last, Passes nodes stuck start trail last ∧ last ∈ trail ∧
      walk nodes stuck n path i = trail.dropWhile (· != last) := by
  have ht := h.trail hn hm
  induction n generalizing path i with
  | zero =>
    have := ht.length_le hs
    omega
  | succ n ih =>
    rw [walk]
    split
    · rename_i hc
      exact ⟨path, i, h, by simpa using hc, rfl⟩
    · rename_i hc
      obtain ⟨next, hb⟩ := Option.isSome_iff_exists.mp (hs.blocked i (ht.stuck (by simp)))
      have h' := h.step (by simpa using hc) hb
      rw [hb]
      apply ih h' _ (h'.trail hn hm)
      rw [List.length_append, List.length_singleton]
      omega

/-- The walk starts somewhere, finds a blocker wherever it comes, and the cycle is cut from its path
where a node comes again. -/
def ClosesWalk (nodes : List Node) (stuck : List Nat) : Prop :=
  ∃ start, (stuck.find? fun i => indexOf? nodes (nameOf nodes i) == some i) = some start ∧
    (∀ path i, Passes nodes stuck start path i → (blocker? nodes stuck i).isSome) ∧
    ∃ path i, Passes nodes stuck start path i ∧ i ∈ path ∧
      cycle nodes stuck = (path.dropWhile (· != i)).map (nameOf nodes)

theorem Stuck.closesWalk (hs : Stuck nodes stuck) (hn : (nodes.map Node.name).Nodup)
    (hne : stuck ≠ []) : ClosesWalk nodes stuck := by
  obtain ⟨i, rest, rfl⟩ := List.exists_cons_of_ne_nil hne
  have hg := List.getElem?_eq_getElem (hs.node i List.mem_cons_self)
  have hi : indexOf? nodes (nameOf nodes i) = some i :=
    (indexOf?_eq_some_iff hn).mpr ⟨_, hg, (nameOf_of_getElem? hg).symm⟩
  have hf : ((i :: rest).find? fun j => indexOf? nodes (nameOf nodes j) == some j) = some i := by
    rw [List.find?_cons_of_pos (by simp [hi])]
  refine ⟨i, hf, ?_, ?_⟩
  · intro path j hp
    exact hs.blocked j ((hp.trail hn List.mem_cons_self).stuck (by simp))
  · obtain ⟨path, j, hp, hj, hw⟩ := exists_walk (n := nodes.length + 1) hn hs
      List.mem_cons_self .start (by simp)
    refine ⟨path, j, hp, hj, ?_⟩
    rw [cycle, hf]
    exact congrArg (List.map (nameOf nodes)) hw

theorem ClosesWalk.exists_isCycle (h : ClosesWalk nodes stuck) (hn : (nodes.map Node.name).Nodup) :
    ∃ ring, IsCycle nodes ring ∧ cycle nodes stuck = ring.map (nameOf nodes) := by
  obtain ⟨start, hf, -, path, i, hp, hi, hc⟩ := h
  exact ⟨_, (hp.trail hn (List.mem_of_find?_eq_some hf)).isCycle hi, hc⟩

theorem transGen_of_isChain {r : Nat → Nat → Prop} {i j : Nat}
    (h : List.IsChain r (i :: (path ++ [j]))) : Relation.TransGen r i j := by
  induction path generalizing i with
  | nil => exact .single (List.isChain_pair.mp h)
  | cons k path ih =>
    obtain ⟨hik, hk⟩ := List.isChain_cons_cons.mp h
    exact .head hik (ih hk)

namespace IsCycle

theorem onCycle (h : IsCycle nodes ring) {i : Nat} (hi : i ∈ ring) : OnCycle nodes i := by
  have hc := h.closed
  obtain ⟨front, back, rfl⟩ := List.append_of_mem hi
  cases front with
  | nil => exact transGen_of_isChain hc
  | cons first front =>
    -- Around the ring: from the node to the first one, and from there to the node.
    have hto : List.IsChain (DependsOn nodes) ((first :: (front ++ [i])) ++ (back ++ [first])) := by
      simpa using hc
    have hfrom : List.IsChain (DependsOn nodes) ((first :: front) ++ i :: (back ++ [first])) := by
      simpa using hc
    exact (transGen_of_isChain hfrom.right_of_append).trans (transGen_of_isChain hto.left_of_append)

theorem lt_length (h : IsCycle nodes ring) {i : Nat} (hi : i ∈ ring) : i < nodes.length := by
  obtain ⟨j, ⟨a, b, ha, -⟩, -⟩ := Relation.TransGen.head'_iff.mp (h.onCycle hi)
  exact (List.getElem?_eq_some_iff.mp ha).1

theorem nodup_names (h : IsCycle nodes ring) (hn : (nodes.map Node.name).Nodup) :
    (ring.map (nameOf nodes)).Nodup := by
  apply List.Nodup.map_on _ h.nodup
  intro i hi j hj he
  have hgi := List.getElem?_eq_getElem (h.lt_length hi)
  have hgj := List.getElem?_eq_getElem (h.lt_length hj)
  rw [nameOf_of_getElem? hgi, nameOf_of_getElem? hgj] at he
  exact index_unique hn hgi hgj he

end IsCycle

/-- All that a node depends on, also through others, is placed before it. -/
theorem Greedy.before (h : Greedy nodes order) {i j : Nat}
    (hd : Relation.TransGen (DependsOn nodes) i j) {front back : List Nat}
    (he : order = front ++ i :: back) : j ∈ front := by
  induction hd with
  | single hd => exact h.dependencies_first front i back he _ hd
  | tail _ hd ih =>
    obtain ⟨start, rest, hs⟩ := List.append_of_mem ih
    have hj := h.dependencies_first start _ (rest ++ i :: back) (by simp [he, hs]) _ hd
    exact hs ▸ List.mem_append_left _ hj

theorem Greedy.not_onCycle (h : Greedy nodes order) (i : Nat) : ¬ OnCycle nodes i := by
  intro hc
  obtain ⟨j, ⟨a, b, ha, -⟩, -⟩ := Relation.TransGen.head'_iff.mp hc
  have hi : i ∈ order := h.perm.mem_iff.mpr
    (List.mem_range.mpr (List.getElem?_eq_some_iff.mp ha).1)
  obtain ⟨front, back, he⟩ := List.append_of_mem hi
  have hd := h.perm.nodup_iff.mpr List.nodup_range
  rw [he] at hd
  exact List.disjoint_of_nodup_append hd (h.before hc he) List.mem_cons_self

theorem stuck_of_sort {names : List Text} (h : sort nodes = .error names) :
    (outcome nodes).stuck nodes ≠ [] ∧
      names = Text.sorted (cycle nodes ((outcome nodes).stuck nodes)) := by
  rw [sort_eq_place] at h
  rw [(outcome_eq_place nodes).2]
  split at h
  · cases h
  · rename_i hne
    cases h
    exact ⟨hne, rfl⟩

/-- The names of the nodes of one cycle, in order and each once; a node that is on no cycle is not
among them. -/
structure NamesCycle (nodes : List Node) (names : List Text) : Prop where
  sorted : names.Pairwise (· < ·)
  nonempty : names ≠ []
  ring : ∃ ring, IsCycle nodes ring ∧ ∀ name, name ∈ names ↔ name ∈ ring.map (nameOf nodes)
  onCycle : ∀ i < nodes.length, nameOf nodes i ∈ names → OnCycle nodes i

theorem IsCycle.namesCycle (h : IsCycle nodes ring) (hn : (nodes.map Node.name).Nodup) :
    NamesCycle nodes (Text.sorted (ring.map (nameOf nodes))) := by
  have hp := Text.sorted_perm (ring.map (nameOf nodes))
  refine ⟨Text.pairwise_sorted (h.nodup_names hn), ?_, ⟨ring, h, fun _ => hp.mem_iff⟩, ?_⟩
  · intro he
    have hl := hp.length_eq
    rw [he, List.length_map] at hl
    exact h.nonempty (List.length_eq_zero_iff.mp hl.symm)
  · intro i hi hm
    obtain ⟨j, hj, he⟩ := List.mem_map.mp (hp.mem_iff.mp hm)
    have hgi := List.getElem?_eq_getElem hi
    have hgj := List.getElem?_eq_getElem (h.lt_length hj)
    rw [nameOf_of_getElem? hgi, nameOf_of_getElem? hgj] at he
    exact index_unique hn hgj hgi he ▸ h.onCycle hj

/--
Cycles are reported exactly. Nodes with distinct names cannot be sorted exactly if one of them
depends on itself, directly or through others; the names reported then are those of one simple
cycle, in order, and the walk that finds it comes back to a node and is never at a loss.
-/
theorem sort_fails_iff_onCycle (hn : (nodes.map Node.name).Nodup) :
    ((∃ names, sort nodes = .error names) ↔ ∃ i, OnCycle nodes i) ∧
      ∀ names, sort nodes = .error names →
        NamesCycle nodes names ∧ ClosesWalk nodes ((outcome nodes).stuck nodes) := by
  have hreports (names : List Text) (h : sort nodes = .error names) :
      NamesCycle nodes names ∧ ClosesWalk nodes ((outcome nodes).stuck nodes) := by
    obtain ⟨hne, rfl⟩ := stuck_of_sort h
    have hw := (stuck_outcome nodes).closesWalk hn hne
    obtain ⟨ring, hr, hc⟩ := hw.exists_isCycle hn
    exact ⟨hc ▸ hr.namesCycle hn, hw⟩
  refine ⟨⟨?_, ?_⟩, hreports⟩
  · rintro ⟨names, h⟩
    obtain ⟨ring, hr, -⟩ := (hreports names h).1.ring
    obtain ⟨i, hi⟩ := List.exists_mem_of_ne_nil ring hr.nonempty
    exact ⟨i, hr.onCycle hi⟩
  · rintro ⟨i, hi⟩
    cases hs : sort nodes with
    | error names => exact ⟨names, rfl⟩
    | ok order => exact absurd hi ((greedy_of_sort hn hs).not_onCycle i)

/-- The smallest name leads to the cycle without being on it, and another node needs itself. -/
def recordings : List Node :=
  [⟨"Album", ["Label", "Track"]⟩, ⟨"Track", ["Disc"]⟩, ⟨"Label", []⟩, ⟨"Disc", ["Track", "Label"]⟩,
    ⟨"Playlist", ["Track", "Playlist"]⟩]

theorem sort_fails_iff_onCycle_of_recordings : (recordings.map Node.name).Nodup ∧
    sort recordings = .error ["Disc", "Track"] ∧ NamesCycle recordings ["Disc", "Track"] ∧
      ∃ i, OnCycle recordings i := by
  have hn : (recordings.map Node.name).Nodup := by decide
  have hs : sort recordings = .error ["Disc", "Track"] := by cbv
  have h := sort_fails_iff_onCycle hn
  exact ⟨hn, hs, (h.2 _ hs).1, h.1.mp ⟨_, hs⟩⟩

end Bindery.Order

import Bindery.Binding.Plan

namespace Bindery

/-- The table that a type as written refers to, possibly in arrays and through domains. -/
def Catalog.RefersTo (c : Catalog) (raw : Text) (table : Nat) : Prop :=
  (c.lookup raw).target = some (.table table)

namespace Catalog

theorem mem_reach_of_type {c : Catalog} {fresh : List Nat} {types : List Text} {raw : Text}
    {i : Nat} (hr : raw ∈ types) (ht : c.RefersTo raw i) (hi : i ∈ fresh) :
    i ∈ c.reach fresh types := by
  fun_induction reach c fresh types with
  | case1 => cases hr
  | case2 fresh first rest index hx _ _ ih =>
    by_cases he : i = index
    · exact he ▸ List.mem_cons_self
    · have hf : i ∈ fresh.erase index := (List.mem_erase_of_ne he).mpr hi
      rcases List.mem_cons.mp hr with rfl | hr
      · rw [RefersTo, hx] at ht
        cases ht
        exact absurd rfl he
      · exact List.mem_cons_of_mem _ (ih (List.mem_append_right _ hr) hf)
  | case3 fresh first rest index hx hn ih =>
    rcases List.mem_cons.mp hr with rfl | hr
    · rw [RefersTo, hx] at ht
      cases ht
      exact absurd hi hn
    · exact ih hr hi
  | case4 fresh first rest hn ih =>
    rcases List.mem_cons.mp hr with rfl | hr
    · exact (hn i ht).elim
    · exact ih hr hi

theorem mem_reach_of_column {c : Catalog} {fresh : List Nat} {types : List Text} {j : Nat}
    {raw : Text} {i : Nat} (hj : j ∈ c.reach fresh types) (hr : raw ∈ c.columnTypes j)
    (ht : c.RefersTo raw i) (hi : i ∈ fresh) : i ∈ c.reach fresh types := by
  fun_induction reach c fresh types with
  | case1 => cases hj
  | case2 fresh first rest index _ _ _ ih =>
    by_cases he : i = index
    · exact he ▸ List.mem_cons_self
    · have hf : i ∈ fresh.erase index := (List.mem_erase_of_ne he).mpr hi
      -- The columns of the table itself are among the types from which the search goes on.
      rcases List.mem_cons.mp hj with rfl | hj
      · exact List.mem_cons_of_mem _ (mem_reach_of_type (List.mem_append_left _ hr) ht hf)
      · exact List.mem_cons_of_mem _ (ih hj hf)
  | case3 fresh first rest index _ _ ih => exact ih hj hi
  | case4 fresh first rest _ ih => exact ih hj hi

/-- The least set of tables that holds those to which the roots refer, and with each table those to
which its columns refer. -/
inductive Reached (c : Catalog) (root : Text → Prop) : Nat → Prop
  | root {raw : Text} {i : Nat} (h : root raw) (hr : c.RefersTo raw i) : Reached c root i
  | column {j : Nat} {raw : Text} {i : Nat} (hj : Reached c root j) (h : raw ∈ c.columnTypes j)
      (hr : c.RefersTo raw i) : Reached c root i

theorem Reached.through {c : Catalog} {root other : Text → Prop} {i : Nat} (h : c.Reached root i)
    (ho : ∀ raw j, root raw → c.RefersTo raw j → c.Reached other j) : c.Reached other i := by
  induction h with
  | root h hr => exact ho _ _ h hr
  | column _ h hr ih => exact ih.column h hr

theorem Reached.mono {c : Catalog} {root other : Text → Prop} {i : Nat} (h : c.Reached root i)
    (ho : ∀ raw, root raw → other raw) : c.Reached other i :=
  h.through fun _ _ hroot hr => .root (ho _ hroot) hr

theorem reached_of_mem_reach {c : Catalog} {fresh : List Nat} {types : List Text} {i : Nat}
    (h : i ∈ c.reach fresh types) : c.Reached (· ∈ types) i := by
  fun_induction reach c fresh types with
  | case1 => cases h
  | case2 fresh first rest index hx _ _ ih =>
    have hindex : c.Reached (· ∈ first :: rest) index := .root List.mem_cons_self hx
    rcases List.mem_cons.mp h with rfl | h
    · exact hindex
    · apply (ih h).through
      intro raw j hraw hr
      rcases List.mem_append.mp hraw with hraw | hraw
      · exact hindex.column hraw hr
      · exact .root (List.mem_cons_of_mem first hraw) hr
  | case3 fresh first rest index _ _ ih => exact (ih h).mono fun _ => List.mem_cons_of_mem first
  | case4 fresh first rest _ ih => exact (ih h).mono fun _ => List.mem_cons_of_mem first

theorem mem_reach_iff {c : Catalog} {fresh : List Nat} {types : List Text} {i : Nat}
    (hf : ∀ raw j, c.RefersTo raw j → j ∈ fresh) :
    i ∈ c.reach fresh types ↔ c.Reached (· ∈ types) i := by
  constructor
  · exact reached_of_mem_reach
  · intro h
    induction h with
    | root h hr => exact mem_reach_of_type h hr (hf _ _ hr)
    | column _ h hr ih => exact mem_reach_of_column ih h hr (hf _ _ hr)

end Catalog

end Bindery

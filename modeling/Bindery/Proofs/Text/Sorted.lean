import Bindery.Text.Sorted
import Mathlib.Data.List.Nodup

namespace Bindery.Text

theorem mem_insertSorted {s t : Text} {texts : List Text} :
    s ∈ insertSorted t texts ↔ s = t ∨ s ∈ texts := by
  induction texts with
  | nil => simp [insertSorted]
  | cons u rest ih =>
    unfold insertSorted
    split
    · simp
    · split
      · rename_i he
        simp [he]
      · simp [ih, or_left_comm]

@[simp] theorem mem_sortedSet {s : Text} {texts : List Text} :
    s ∈ sortedSet texts ↔ s ∈ texts := by
  induction texts with
  | nil => simp [sortedSet]
  | cons t rest ih =>
    change s ∈ insertSorted t (sortedSet rest) ↔ _
    rw [mem_insertSorted, ih, List.mem_cons]

theorem pairwise_insertSorted (t : Text) {texts : List Text} (h : texts.Pairwise (· < ·)) :
    (insertSorted t texts).Pairwise (· < ·) := by
  induction texts with
  | nil => simp [insertSorted]
  | cons u rest ih =>
    obtain ⟨hu, hr⟩ := List.pairwise_cons.mp h
    unfold insertSorted
    split
    · rename_i hlt
      refine List.pairwise_cons.mpr ⟨?_, h⟩
      intro v hv
      rcases List.mem_cons.mp hv with rfl | hv
      · exact hlt
      · exact List.lt_trans hlt (hu v hv)
    · split
      · exact h
      · rename_i hlt hne
        refine List.pairwise_cons.mpr ⟨?_, ih hr⟩
        intro v hv
        rcases mem_insertSorted.mp hv with rfl | hv
        · rcases List.le_iff_lt_or_eq.mp (List.not_lt.mp hlt) with h | h
          · exact h
          · exact absurd h.symm hne
        · exact hu v hv

theorem pairwise_sortedSet (texts : List Text) : (sortedSet texts).Pairwise (· < ·) := by
  induction texts with
  | nil => exact .nil
  | cons t rest ih => exact pairwise_insertSorted t ih

theorem nodup_sortedSet (texts : List Text) : (sortedSet texts).Nodup := by
  apply (pairwise_sortedSet texts).imp
  rintro s t hlt rfl
  exact List.lt_irrefl s hlt

theorem pairwise_mergeSort {α : Type} (key : α → Text) (items : List α) :
    (items.mergeSort fun a b => !decide (key b < key a)).Pairwise fun a b => ¬ key b < key a := by
  let le (a b : α) : Bool := !decide (key b < key a)
  have hle (a b : α) : le a b = true ↔ ¬ key b < key a := by simp [le]
  have hs := @List.pairwise_mergeSort _ le
    (by
      intro a b c hab hbc
      rw [hle] at *
      exact List.not_lt.mpr (List.le_trans (List.not_lt.mp hab) (List.not_lt.mp hbc)))
    (by
      intro a b
      rw [Bool.or_eq_true, hle, hle]
      exact (List.le_total _ _).imp List.not_lt.mpr List.not_lt.mpr)
    items
  exact hs.imp (hle _ _).mp

theorem sorted_perm (texts : List Text) : (sorted texts).Perm texts :=
  List.mergeSort_perm ..

theorem pairwise_sorted {texts : List Text} (h : texts.Nodup) :
    (sorted texts).Pairwise (· < ·) := by
  have hn := (sorted_perm texts).nodup_iff.mpr h
  apply List.Pairwise.imp₂ _ hn (pairwise_mergeSort id texts)
  intro s t hne hle
  exact (List.le_iff_lt_or_eq.mp (List.not_lt.mp hle)).resolve_right hne

end Bindery.Text

import Bindery.Proofs.Text.Basic
import Bindery.Text.Case
import Mathlib.Tactic.SplitIfs

namespace Bindery.Text

theorem isLower_iff {c : Char} : c.isLower = true ↔ 97 ≤ c.toNat ∧ c.toNat ≤ 122 := by
  have h : c.isLower = (decide ('a'.val ≤ c.val) && decide (c.val ≤ 'z'.val)) := rfl
  rw [h, Bool.and_eq_true, decide_eq_true_iff, decide_eq_true_iff, UInt32.le_iff_toNat_le,
    UInt32.le_iff_toNat_le]
  rfl

theorem toNat_ofNat (n : Nat) : (Char.ofNat n).toNat = n ∨ (Char.ofNat n).toNat = 0 := by
  by_cases hv : n.isValidChar
  · have ho : Char.ofNat n = Char.ofNatAux n hv := dif_pos hv
    exact .inl (congrArg Char.toNat ho)
  · have ho : Char.ofNat n = '\x00' := dif_neg hv
    exact .inr (congrArg Char.toNat ho)

theorem isLower_ofNat {n : Nat} (h : n < 97 ∨ 122 < n) : (Char.ofNat n).isLower = false := by
  have hn := toNat_ofNat n
  rw [Bool.eq_false_iff, ne_eq, isLower_iff]
  omega

theorem eq_toNat_of_ofNat {n : Nat} {c : Char} (h : Char.ofNat n = c) (hc : c.toNat ≠ 0) :
    n = c.toNat := by
  have hn := toNat_ofNat n
  rw [h] at hn
  omega

/-- The code points that a table can move to `m`, and `m` itself. -/
def origins (m : Nat) (table : List Shift) : List Nat :=
  m :: table.filterMap fun s =>
    if s.target ≤ m ∧ m ≤ s.target + (s.last - s.first) then some (s.first + (m - s.target))
    else none

theorem mem_origins (n : Nat) (table : List Shift) : n ∈ origins (shift n table) table := by
  have hmore {m : Nat} {s : Shift} {table : List Shift} (h : n ∈ origins m table) :
      n ∈ origins m (s :: table) := by
    rcases List.mem_cons.mp h with h | h
    · rw [h]
      exact List.mem_cons_self
    · apply List.mem_cons_of_mem
      rw [List.filterMap_cons]
      split
      · exact h
      · exact List.mem_cons_of_mem _ h
  induction table with
  | nil => exact List.mem_cons_self
  | cons s table ih =>
    rw [shift]
    split_ifs with hlt hle hmod
    · exact List.mem_cons_self
    · apply List.mem_cons_of_mem
      apply List.mem_filterMap.mpr
      refine ⟨s, List.mem_cons_self, ?_⟩
      rw [if_pos (by omega)]
      apply congrArg some
      omega
    · exact List.mem_cons_self
    · exact hmore ih

theorem mem_origins_of_ofNat {n : Nat} {d : Char} {table : List Shift}
    (h : Char.ofNat (shift n table) = d) (hd : d.toNat ≠ 0) : n ∈ origins d.toNat table := by
  rw [← eq_toNat_of_ofNat h hd]
  exact mem_origins n table

theorem shift_outside {lo hi n : Nat} {table : List Shift} (hn : n < lo ∨ hi < n)
    (h : ∀ s ∈ table, s.target + (s.last - s.first) < lo ∨ hi < s.target) :
    shift n table < lo ∨ hi < shift n table := by
  rcases List.mem_cons.mp (mem_origins n table) with hm | hm
  · rwa [← hm]
  · obtain ⟨s, hs, he⟩ := List.mem_filterMap.mp hm
    have ht := h s hs
    split_ifs at he
    omega

theorem shift_upperShifts (n : Nat) : shift n upperShifts < 97 ∨ 122 < shift n upperShifts := by
  by_cases hn : n < 97 ∨ 122 < n
  · exact shift_outside hn (by decide +kernel)
  · obtain ⟨rest, hr⟩ : ∃ rest, upperShifts = ⟨97, 122, 1, 65⟩ :: rest := ⟨_, rfl⟩
    have hs : shift n upperShifts = 65 + (n - 97) := by
      have hl : 97 ≤ n ∧ n ≤ 122 := by omega
      rw [hr, shift, if_neg (Nat.not_lt.mpr hl.1), if_pos hl.2, if_pos (Nat.mod_one _)]
    omega

theorem isLower_upperChar {c d : Char} (h : d ∈ upperChar c) : d.isLower = false := by
  unfold upperChar at h
  split at h
  · rename_i targets ht
    obtain ⟨front, back, he, -⟩ := List.lookup_eq_some_iff.mp ht
    obtain ⟨n, hn, rfl⟩ := List.mem_map.mp h
    have hall : ∀ entry ∈ upperExpansions, ∀ n ∈ entry.2, n < 97 ∨ 122 < n := by decide
    exact isLower_ofNat (hall _ (he ▸ List.mem_append_right _ List.mem_cons_self) n hn)
  · rw [List.mem_singleton.mp h]
    exact isLower_ofNat (shift_upperShifts _)

/-- One character alone becomes several: the dotted capital, which leaves a letter and a point. -/
theorem lowerChar_cases (c : Char) : lowerChar c = ['i', Char.ofNat 0x307] ∨
    lowerChar c = [Char.ofNat (shift c.toNat lowerShifts)] := by
  unfold lowerChar
  split
  · exact .inl rfl
  · exact .inr rfl

theorem mem_origins_of_lowerChar {c d : Char} (h : lowerChar c = [d]) (hd : d.toNat ≠ 0) :
    c.toNat ∈ origins d.toNat lowerShifts := by
  rcases lowerChar_cases c with hc | hc
  · rw [hc] at h
    cases h
  · exact mem_origins_of_ofNat (List.singleton_inj.mp (hc.symm.trans h)) hd

theorem length_upperExpansions : ∀ entry ∈ upperExpansions, 2 ≤ entry.2.length := by
  decide

theorem upperChar_cases (c : Char) : 2 ≤ (upperChar c).length ∨
    upperChar c = [Char.ofNat (shift c.toNat upperShifts)] := by
  unfold upperChar
  split
  · rename_i targets ht
    obtain ⟨front, back, he, -⟩ := List.lookup_eq_some_iff.mp ht
    have hm : (c.toNat, targets) ∈ upperExpansions :=
      he ▸ List.mem_append_right _ List.mem_cons_self
    left
    rw [List.length_map]
    exact length_upperExpansions (c.toNat, targets) hm
  · exact .inr rfl

theorem upperChar_ne_nil (c : Char) : upperChar c ≠ [] := by
  intro h
  rcases upperChar_cases c with hc | hc
  · rw [h] at hc
    cases hc
  · rw [h] at hc
    cases hc

theorem mem_origins_of_upperChar {c d : Char} (h : upperChar c = [d]) (hd : d.toNat ≠ 0) :
    c.toNat ∈ origins d.toNat upperShifts := by
  rcases upperChar_cases c with hc | hc
  · rw [h] at hc
    exact absurd hc (by simp)
  · exact mem_origins_of_ofNat (List.singleton_inj.mp (hc.symm.trans h)) hd

end Bindery.Text

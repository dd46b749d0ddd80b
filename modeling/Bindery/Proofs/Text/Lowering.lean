import Bindery.Proofs.Text.Letters
import Bindery.Text.Lower

namespace Bindery.Text

/-- A character at which the search for a cased letter ends in vain. -/
structure Caseless (c : Char) : Prop where
  not_ignorable : isCaseIgnorable c = false
  not_cased : isCased c = false

section Caseless

variable {c : Char}

theorem Caseless.ne_sigma (h : Caseless c) : c ≠ 'Σ' := by
  intro hc
  rw [hc] at h
  exact absurd h.not_cased (by decide)

theorem startsCased_append_caseless (h : Caseless c) (s t : Text) :
    startsCased (s ++ c :: t) = startsCased s := by
  induction s with
  | nil => simp [startsCased, h.not_ignorable, h.not_cased]
  | cons d s ih =>
    by_cases hd : isCaseIgnorable d = true
    · simpa [startsCased, hd] using ih
    · simp [startsCased, hd]

theorem lowerAfter_append_caseless (h : Caseless c) (before s t : Text) :
    lowerAfter before (s ++ c :: t) =
      lowerAfter before s ++ lowerAfter (s.reverse ++ before) (c :: t) := by
  induction s generalizing before with
  | nil => rfl
  | cons d s ih =>
    rw [List.cons_append, lowerAfter, lowerAfter, startsCased_append_caseless h, ih,
      List.append_assoc, List.reverse_cons, List.append_assoc]
    rfl

theorem lowerAfter_caseless (h : Caseless c) (near far t : Text) :
    lowerAfter (near ++ c :: far) t = lowerAfter near t := by
  induction t generalizing near with
  | nil => rfl
  | cons d t ih =>
    rw [lowerAfter, lowerAfter, startsCased_append_caseless h]
    have ih := ih (d :: near)
    rw [List.cons_append] at ih
    rw [ih]

theorem lower_append_caseless (h : Caseless c) (s t : Text) :
    lower (s ++ c :: t) = lower s ++ (lowerChar c ++ lower t) := by
  rw [lower, lowerAfter_append_caseless h, lowerAfter, if_neg h.ne_sigma]
  have ht := lowerAfter_caseless h [] (s.reverse ++ []) t
  rw [List.nil_append] at ht
  rw [ht, lower, lower]

end Caseless

theorem caseless_of_blank {c : Char} (h : isBlank c = true) : Caseless c := by
  have hall : ∀ n ∈ blankPoints, inRanges n caseIgnorableRanges = false ∧
      (inRanges n lowercaseRanges || inRanges n uppercaseRanges ||
        inRanges n titlecaseRanges) = false := by
    decide +kernel
  obtain ⟨hi, hc⟩ := hall c.toNat (mem_blankPoints h)
  exact ⟨hi, hc⟩

theorem lowerChar_of_blank {c : Char} (h : isBlank c = true) : lowerChar c = [c] := by
  have hall : ∀ n ∈ blankPoints, n ≠ 0x130 ∧ shift n lowerShifts = n := by decide +kernel
  obtain ⟨hn, hs⟩ := hall c.toNat (mem_blankPoints h)
  rw [lowerChar, if_neg hn, hs, Char.ofNat_toNat]

theorem lower_append_gap {w : Text} (h : IsGap w) (s t : Text) :
    lower (s ++ (w ++ t)) = lower s ++ (w ++ lower t) := by
  have hcut {c : Char} (hc : isBlank c = true) (s t : Text) :
      lower (s ++ c :: t) = lower s ++ c :: lower t := by
    rw [lower_append_caseless (caseless_of_blank hc), lowerChar_of_blank hc]
    rfl
  have hkeep {w : Text} (hw : ∀ c ∈ w, isBlank c = true) : lower (w ++ t) = w ++ lower t := by
    induction w with
    | nil => rfl
    | cons c w ih =>
      obtain ⟨hc, hw⟩ := List.forall_mem_cons.mp hw
      exact (hcut hc [] (w ++ t)).trans (congrArg (c :: ·) (ih hw))
  obtain ⟨c, w, rfl⟩ := List.exists_cons_of_ne_nil h.nonempty
  obtain ⟨hc, hw⟩ := List.forall_mem_cons.mp h.blank
  rw [List.cons_append, hcut hc, hkeep hw]
  rfl

theorem mem_lowerAfter {before t : Text} {d : Char} (h : d ∈ lowerAfter before t) :
    d = 'σ' ∨ d = 'ς' ∨ ∃ c ∈ t, d ∈ lowerChar c := by
  induction t generalizing before with
  | nil => cases h
  | cons c t ih =>
    rw [lowerAfter, List.mem_append] at h
    rcases h with h | h
    · split at h
      · split at h
        · exact .inr (.inl (List.mem_singleton.mp h))
        · exact .inl (List.mem_singleton.mp h)
      · exact .inr (.inr ⟨c, List.mem_cons_self, h⟩)
    · rcases ih h with h | h | ⟨e, he, h⟩
      · exact .inl h
      · exact .inr (.inl h)
      · exact .inr (.inr ⟨e, List.mem_cons_of_mem _ he, h⟩)

theorem bracket_not_mem_lower {t : Text} (h : '[' ∉ t) : '[' ∉ lower t := by
  intro hm
  rcases mem_lowerAfter hm with hm | hm | ⟨c, hc, hm⟩
  · exact absurd hm (by decide)
  · exact absurd hm (by decide)
  · have ho : origins '['.toNat lowerShifts = ['['.toNat] := by decide
    rcases lowerChar_cases c with hl | hl
    · rw [hl] at hm
      exact absurd hm (by decide)
    · have hone : lowerChar c = ['['] := by
        rw [hl] at hm ⊢
        rw [List.mem_singleton.mp hm]
      have hb := mem_origins_of_lowerChar hone (by decide)
      rw [ho, List.mem_singleton] at hb
      have he : c = '[' := Char.toNat_inj.mp hb
      exact h (he ▸ hc)

end Bindery.Text

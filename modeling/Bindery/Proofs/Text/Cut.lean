import Bindery.Proofs.Text.Basic

namespace Bindery.Text

/-- A first character takes at least one byte and leaves the bytes of the rest. -/
theorem exists_byteSize_cons (c : Char) (t : Text) :
    ∃ n, byteSize (c :: t) = n + 1 ∧ n + 1 - c.utf8Size = byteSize t := by
  have hc := c.utf8Size_pos
  refine ⟨byteSize (c :: t) - 1, ?_, ?_⟩
  · simp only [byteSize]
    omega
  · simp only [byteSize]
    omega

theorem dropBytes_append (s t : Text) : dropBytes (byteSize s) (s ++ t) = t := by
  induction s with
  | nil => simp [byteSize, dropBytes]
  | cons c s ih =>
    obtain ⟨n, hn, hs⟩ := exists_byteSize_cons c s
    rw [hn, List.cons_append, dropBytes, hs, ih]

theorem takeBytes_append (s t : Text) : takeBytes (byteSize s) (s ++ t) = s := by
  induction s with
  | nil => simp [byteSize, takeBytes]
  | cons c s ih =>
    obtain ⟨n, hn, hs⟩ := exists_byteSize_cons c s
    rw [hn, List.cons_append, takeBytes, hs, ih]

theorem between_append (before part after : Text) :
    between (before ++ (part ++ after)) (byteSize before) (byteSize before + byteSize part) =
      part := by
  rw [between, dropBytes_append, Nat.add_sub_cancel_left, takeBytes_append]

theorem dropBytes_append_add (s t : Text) (n : Nat) :
    dropBytes (byteSize s + n) (s ++ t) = dropBytes n t := by
  induction s with
  | nil => rw [byteSize, Nat.zero_add, List.nil_append]
  | cons c s ih =>
    obtain ⟨m, hm, hs⟩ := exists_byteSize_cons c s
    have hk : m + 1 + n = m + n + 1 := by omega
    have hn : m + n + 1 - c.utf8Size = byteSize s + n := by
      rw [byteSize] at hm
      omega
    rw [hm, List.cons_append, hk, dropBytes, hn, ih]

theorem takeBytes_append_of_le {n : Nat} {s : Text} (h : n ≤ byteSize s) (t : Text) :
    takeBytes n (s ++ t) = takeBytes n s := by
  induction s generalizing n with
  | nil =>
    rw [Nat.le_zero.mp h]
    simp [takeBytes]
  | cons c s ih =>
    cases n with
    | zero => simp [takeBytes]
    | succ n =>
      rw [List.cons_append, takeBytes, takeBytes, ih]
      rw [byteSize] at h
      omega

theorem isBoundary_append (s t : Text) : isBoundary (s ++ t) (byteSize s) = true := by
  induction s with
  | nil => simp [byteSize, isBoundary]
  | cons c s ih =>
    obtain ⟨n, hn, hs⟩ := exists_byteSize_cons c s
    have hc : c.utf8Size ≤ n + 1 := by
      rw [byteSize] at hn
      omega
    rw [hn, List.cons_append, isBoundary, hs, ih, decide_eq_true hc]
    rfl

/-- What stands behind a text is cut out as it would be without the text. -/
theorem between_append_right (s t : Text) (start stop : Nat) :
    between (s ++ t) (byteSize s + start) (byteSize s + stop) = between t start stop := by
  rw [between, dropBytes_append_add, Nat.add_sub_add_left, between]

theorem between_append_left {before s : Text} {stop : Nat} (h : stop ≤ byteSize (before ++ s))
    (t : Text) :
    between (before ++ s ++ t) (byteSize before) stop =
      between (before ++ s) (byteSize before) stop := by
  rw [byteSize_append] at h
  rw [between, between, List.append_assoc, dropBytes_append, dropBytes_append,
    takeBytes_append_of_le (by omega)]

/-- The text begins and ends with a character that is not white space. -/
structure Tight (t : Text) : Prop where
  first : ∃ c rest, t = c :: rest ∧ isBlank c = false
  last : ∃ front c, t = front ++ [c] ∧ isBlank c = false

theorem Tight.trim_eq {t : Text} (h : Tight t) : trim t = t := by
  obtain ⟨c, rest, hf, hc⟩ := h.first
  obtain ⟨front, d, hl, hd⟩ := h.last
  have hs : trimStart t = t := by
    rw [hf, trimStart, List.dropWhile_cons_of_neg (by simp [hc])]
  rw [trim, hs, hl, trimEnd_append_cons hd]
  rfl

theorem exists_trim (t : Text) :
    ∃ lead trail, (∀ c ∈ lead, isBlank c = true) ∧ (∀ c ∈ trail, isBlank c = true) ∧
      t = lead ++ (trim t ++ trail) := by
  refine ⟨t.takeWhile isBlank, ((trimStart t).reverse.takeWhile isBlank).reverse, ?_, ?_, ?_⟩
  · exact List.all_eq_true.mp List.all_takeWhile
  · intro c hc
    exact List.all_eq_true.mp List.all_takeWhile c (List.mem_reverse.mp hc)
  · rw [trim, trimEnd, ← List.reverse_append, List.takeWhile_append_dropWhile, List.reverse_reverse,
      trimStart, List.takeWhile_append_dropWhile]

theorem Tight.trim_between {t : Text} (h : Tight t) {lead trail : Text}
    (hl : ∀ c ∈ lead, isBlank c = true) (ht : ∀ c ∈ trail, isBlank c = true) :
    trim (lead ++ (t ++ trail)) = t := by
  obtain ⟨c, rest, hf, hc⟩ := h.first
  have hs : trimStart (lead ++ (t ++ trail)) = t ++ trail := by
    rw [trimStart, List.dropWhile_append_of_pos hl, hf, List.cons_append,
      List.dropWhile_cons_of_neg (by simp [hc])]
  have he : trimStart t = t := by
    rw [hf, trimStart, List.dropWhile_cons_of_neg (by simp [hc])]
  rw [trim, hs, trimEnd_append_blank ht, ← he, ← trim, h.trim_eq, he]

theorem trimStart_ne_nil {t : Text} (h : isBlankText t = false) : trimStart t ≠ [] := by
  intro hn
  have ht : t.takeWhile isBlank ++ trimStart t = t := List.takeWhile_append_dropWhile
  rw [hn, List.append_nil] at ht
  have hb : (t.takeWhile isBlank).all isBlank = true := List.all_takeWhile
  rw [ht, ← isBlankText, h] at hb
  cases hb

/-- What is left of a text that is not blank has no white space at either end. -/
theorem tight_trim {t : Text} (h : isBlankText t = false) : Tight (trim t) := by
  obtain ⟨c, rest, hf⟩ := List.exists_cons_of_ne_nil (trimStart_ne_nil h)
  have hc : isBlank c = false := by
    have hstops := stops_dropWhile isBlank t
    rw [← trimStart, hf] at hstops
    exact stops_cons.mp hstops
  have ht : trim t = c :: trimEnd rest := by
    rw [trim, hf]
    exact trimEnd_append_cons hc [] rest
  have hd := stops_dropWhile isBlank (trimStart t).reverse
  have hr : trim t = ((trimStart t).reverse.dropWhile isBlank).reverse := rfl
  generalize (trimStart t).reverse.dropWhile isBlank = back at hd hr
  cases back with
  | nil =>
    rw [ht] at hr
    cases hr
  | cons d back =>
    refine ⟨⟨c, trimEnd rest, ht, hc⟩, back.reverse, d, ?_, stops_cons.mp hd⟩
    rw [hr, List.reverse_cons]
theorem not_blank_of_all {t : Text} (h : t.all (!isBlank ·) = true) :
    ∀ c ∈ t, isBlank c = false := by
  intro c hc
  simpa using List.all_eq_true.mp h c hc

/-- Words with one space between any two. -/
inductive Spaced : Text → Prop
  | word {w : Text} : w ≠ [] → (∀ c ∈ w, isBlank c = false) → Spaced w
  | space {w t : Text} : w ≠ [] → (∀ c ∈ w, isBlank c = false) → Spaced t → Spaced (w ++ ' ' :: t)

theorem Spaced.words_ne_nil {t : Text} (h : Spaced t) : words t ≠ [] := by
  cases h with
  | word hn hw => simp [words, List.splitOnP_eq_singleton hw, hn]
  | space hn hw _ => simp [words, List.splitOnP_append_cons_of_forall_mem hw, hn, isBlank]

theorem Spaced.singleSpaced_eq {t : Text} (h : Spaced t) : singleSpaced t = t := by
  induction h with
  | word hn hw => simp [singleSpaced, words, List.splitOnP_eq_singleton hw, hn, join]
  | @space w t hn hw ht ih =>
    have hs : words (w ++ ' ' :: t) = w :: words t := by
      simp [words, List.splitOnP_append_cons_of_forall_mem hw, hn, isBlank]
    rw [singleSpaced, hs, join, List.intercalate_cons_of_ne_nil ht.words_ne_nil]
    rw [singleSpaced, join] at ih
    rw [ih]
    simp

theorem Spaced.append_word {t w : Text} (h : Spaced t) (hw : ∀ c ∈ w, isBlank c = false) :
    Spaced (t ++ w) := by
  induction h with
  | word hn ht =>
    refine .word (by simp [hn]) ?_
    intro c hc
    exact (List.mem_append.mp hc).elim (ht c) (hw c)
  | space hn ht _ ih =>
    rw [List.append_assoc, List.cons_append]
    exact .space hn ht ih

theorem Spaced.word_append {t w : Text} (h : Spaced t) (hw : ∀ c ∈ w, isBlank c = false) :
    Spaced (w ++ t) := by
  have hm {u : Text} (hu : ∀ c ∈ u, isBlank c = false) : ∀ c ∈ w ++ u, isBlank c = false :=
    fun c hc => (List.mem_append.mp hc).elim (hw c) (hu c)
  cases h with
  | word hn ht => exact .word (by simp [hn]) (hm ht)
  | space hn ht hr =>
    rw [← List.append_assoc]
    exact .space (by simp [hn]) (hm ht) hr

theorem Spaced.append {s t : Text} (hs : Spaced s) (ht : Spaced t) : Spaced (s ++ t) := by
  induction hs with
  | word _ hw => exact ht.word_append hw
  | space hn hw _ ih =>
    rw [List.append_assoc, List.cons_append]
    exact .space hn hw ih

theorem dropBytes_suffix (n : Nat) (t : Text) : dropBytes n t <:+ t := by
  fun_induction dropBytes n t with
  | case1 t => exact List.suffix_rfl
  | case2 n => exact List.suffix_rfl
  | case3 n c t ih => exact ih.trans (List.suffix_cons c t)

end Bindery.Text

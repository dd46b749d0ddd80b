import Bindery.Proofs.Text.Basic
import Mathlib.Data.List.DropRight

namespace Bindery.Text

theorem trimEnd_sublist (t : Text) : (trimEnd t).Sublist t := by
  have h := (List.dropWhile_sublist isBlank (l := t.reverse)).reverse
  rwa [List.reverse_reverse] at h

theorem dropFront?_sublist (front t : Text) : ((dropFront? front t).getD t).Sublist t := by
  unfold dropFront?
  split
  · exact List.drop_sublist _ t
  · exact List.Sublist.refl t

theorem dropFront?_append (front t : Text) : dropFront? front (front ++ t) = some t := by
  rw [dropFront?, if_pos (List.isPrefixOf_iff_prefix.mpr (List.prefix_append front t)),
    List.drop_left]

theorem dropBack?_append (t back : Text) : dropBack? back (t ++ back) = some t := by
  rw [dropBack?, if_pos (List.isSuffixOf_iff_suffix.mpr (List.suffix_append t back)),
    List.length_append, Nat.add_sub_cancel, List.take_left]

theorem dropReturn_eq {t : Text} (h : '\r' ∉ t) : dropReturn t = t := by
  rw [dropReturn, dropBack?, if_neg, Option.getD_none]
  intro hs
  exact h ((List.isSuffixOf_iff_suffix.mp hs).subset List.mem_cons_self)

/-- No white space stands at the end of the text. -/
def Trimmed (t : Text) : Prop :=
  ∀ c, t.getLast? = some c → isBlank c = false

theorem trimmed_trimEnd (t : Text) : Trimmed (trimEnd t) := by
  intro c hc
  rw [trimEnd, List.getLast?_reverse] at hc
  exact stops_dropWhile isBlank t.reverse c hc

theorem Trimmed.trimEnd_eq {t : Text} (h : Trimmed t) : trimEnd t = t := by
  rcases List.eq_nil_or_concat' t with rfl | ⟨front, c, rfl⟩
  · rfl
  · exact trimEnd_append_cons (h c (by simp)) front []

theorem Trimmed.suffix {s t : Text} (h : Trimmed t) (hs : s <:+ t) : Trimmed s := by
  obtain ⟨front, rfl⟩ := hs
  intro c hc
  exact h c (List.mem_getLast?_append_of_mem_getLast? hc)

theorem Trimmed.isBlankText_eq {t : Text} (h : Trimmed t) : isBlankText t = t.isEmpty := by
  rcases List.eq_nil_or_concat' t with rfl | ⟨front, c, rfl⟩
  · rfl
  · have hc := h c (by simp)
    simp [isBlankText, hc]

theorem newline_not_mem_of_mem_splitOn {t l : Text} (h : l ∈ t.splitOn '\n') : '\n' ∉ l := by
  induction t generalizing l with
  | nil =>
    rw [List.splitOn_nil, List.mem_singleton] at h
    simp [h]
  | cons c t ih =>
    obtain ⟨first, rest, hs⟩ := List.exists_cons_of_ne_nil (List.splitOn_ne_nil '\n' t)
    rw [hs] at ih
    rw [List.splitOn_cons_eq_if_modifyHead, hs] at h
    split at h
    · rcases List.mem_cons.mp h with rfl | h
      · exact List.not_mem_nil
      · exact ih h
    · rename_i hc
      rcases List.mem_cons.mp h with rfl | h
      · rw [List.mem_cons, not_or]
        exact ⟨fun he => hc (beq_iff_eq.mpr he.symm), ih List.mem_cons_self⟩
      · exact ih (List.mem_cons_of_mem _ h)

theorem newline_not_mem_lines {t l : Text} (h : l ∈ lines t) : '\n' ∉ l := by
  simp only [lines, ← List.splitOn_eq_splitOnP, List.mem_append, List.mem_map, List.mem_filter,
    Option.mem_toList] at h
  rcases h with ⟨piece, hp, rfl⟩ | ⟨hl, -⟩
  · have hs : (dropReturn piece).Sublist piece := by
      unfold dropReturn dropBack?
      split
      · exact List.take_sublist _ piece
      · exact List.Sublist.refl piece
    intro hn
    exact newline_not_mem_of_mem_splitOn ((List.dropLast_sublist _).subset hp) (hs.subset hn)
  · exact newline_not_mem_of_mem_splitOn (List.mem_of_getLast? hl)

theorem join_splitOn (t : Text) : join "\n" (t.splitOn '\n') = t :=
  List.intercalate_splitOn '\n'

theorem splitOn_join {ls : List Text} (h : ∀ l ∈ ls, '\n' ∉ l) (hn : ls ≠ []) :
    (join "\n" ls).splitOn '\n' = ls :=
  List.splitOn_intercalate '\n' h hn

theorem mem_join {c : Char} {separator : Text} {ls : List Text} (h : c ∈ join separator ls) :
    c ∈ separator ∨ ∃ l ∈ ls, c ∈ l := by
  induction ls with
  | nil => cases h
  | cons first ls ih =>
    cases ls with
    | nil =>
      refine .inr ⟨first, List.mem_cons_self, ?_⟩
      simpa [join] using h
    | cons second ls =>
      rw [join_cons_cons, List.mem_append, List.mem_append] at h
      rcases h with h | h | h
      · exact .inr ⟨first, List.mem_cons_self, h⟩
      · exact .inl h
      · rcases ih h with h | ⟨l, hl, hc⟩
        · exact .inl h
        · exact .inr ⟨l, List.mem_cons_of_mem _ hl, hc⟩

theorem join_concat (separator : Text) {ls : List Text} (h : ls ≠ []) (l : Text) :
    join separator (ls ++ [l]) = join separator ls ++ (separator ++ l) := by
  induction ls with
  | nil => contradiction
  | cons first ls ih =>
    cases ls with
    | nil => simp [join]
    | cons second ls =>
      have hi := ih (List.cons_ne_nil second ls)
      rw [List.cons_append] at hi
      rw [List.cons_append, List.cons_append, join_cons_cons, hi, join_cons_cons]
      simp only [List.append_assoc]

theorem getLast?_splitOn {t : Text} (hn : t ≠ []) (hl : t.getLast? ≠ some '\n') :
    (t.splitOn '\n').getLast? ≠ some [] := by
  intro he
  obtain ⟨front, hf⟩ := List.getLast?_eq_some_iff.mp he
  have ht := join_splitOn t
  rw [hf] at ht
  cases front with
  | nil => exact hn ht.symm
  | cons first front =>
    rw [join_concat _ (List.cons_ne_nil first front)] at ht
    apply hl
    rw [← ht, List.getLast?_append]
    rfl

theorem suffix_join_concat (separator : Text) (ls : List Text) (l : Text) :
    l <:+ join separator (ls ++ [l]) := by
  cases ls with
  | nil => simp [join]
  | cons first ls =>
    rw [join_concat separator (List.cons_ne_nil first ls), ← List.append_assoc]
    exact List.suffix_append _ l

theorem subset_join {l : Text} {ls : List Text} (separator : Text) (h : l ∈ ls) :
    l ⊆ join separator ls := by
  induction ls with
  | nil => cases h
  | cons first ls ih =>
    cases ls with
    | nil =>
      rw [List.mem_singleton.mp h]
      simp [join]
    | cons second ls =>
      rw [join_cons_cons]
      rcases List.mem_cons.mp h with rfl | h
      · exact List.subset_append_left _ _
      · apply List.subset_append_of_subset_right
        exact List.subset_append_of_subset_right _ (ih h)

/-- Without carriage returns, and with text behind the last newline, lines are the pieces. -/
theorem lines_eq_splitOn {t : Text} (hr : '\r' ∉ t) (hl : (t.splitOn '\n').getLast? ≠ some []) :
    lines t = t.splitOn '\n' := by
  obtain ⟨front, last, hf⟩ := (List.eq_nil_or_concat' _).resolve_left (List.splitOn_ne_nil '\n' t)
  have hfront : front.map dropReturn = front := by
    have hd : ∀ l ∈ front, dropReturn l = l := by
      intro l hm
      apply dropReturn_eq
      intro hc
      apply hr
      rw [← join_splitOn t, hf]
      exact subset_join _ (List.mem_append_left _ hm) hc
    exact (List.map_congr_left hd).trans (List.map_id' front)
  have hlast : last ≠ [] := by
    rintro rfl
    exact hl (by rw [hf, List.getLast?_concat])
  simp only [lines, ← List.splitOn_eq_splitOnP, hf, List.dropLast_concat, List.getLast?_concat,
    hfront, Option.toList_some]
  simp [hlast]

theorem dropWhile_join {ls : List Text} (h : ∀ l ∈ ls, '\n' ∉ l) :
    (join "\n" ls).dropWhile (· == '\n') = join "\n" (ls.dropWhile List.isEmpty) := by
  induction ls with
  | nil => rfl
  | cons l ls ih =>
    obtain ⟨hl, hls⟩ := List.forall_mem_cons.mp h
    cases l with
    | nil =>
      rw [List.dropWhile_cons_of_pos rfl, ← ih hls]
      cases ls with
      | nil => rfl
      | cons m ls =>
        rw [join_cons_cons]
        exact List.dropWhile_cons_of_pos rfl
    | cons c l =>
      have hc : c ≠ '\n' := fun he => hl (by simp [he])
      rw [List.dropWhile_cons_of_neg (by simp), join, List.intercalate_cons_cons_left,
        List.dropWhile_cons_of_neg (by simpa using hc)]

/-- The white space behind lines that end without any is that of the empty lines at the end. -/
theorem trimEnd_join {ls : List Text} (h : ∀ l ∈ ls, Trimmed l) :
    trimEnd (join "\n" ls) = join "\n" (ls.rdropWhile List.isEmpty) := by
  induction ls using List.reverseRecOn with
  | nil => rfl
  | append_singleton ls l ih =>
    obtain ⟨hls, hl⟩ := List.forall_mem_append.mp h
    have hlast : Trimmed l := hl l (by simp)
    rw [List.rdropWhile_concat]
    split
    · rename_i he
      rw [List.isEmpty_iff] at he
      subst he
      rw [← ih hls]
      cases ls with
      | nil => rfl
      | cons first ls =>
        rw [join_concat _ (List.cons_ne_nil first ls)]
        exact trimEnd_append_blank (List.all_eq_true.mp rfl)
    · rename_i he
      apply Trimmed.trimEnd_eq
      obtain ⟨front, hf⟩ := suffix_join_concat "\n" ls l
      intro c hc
      rw [← hf, List.getLast?_append_of_ne_nil _ (by simpa using he)] at hc
      exact hlast c hc

/-- The lines without the empty ones at either end. -/
def innerLines (ls : List Text) : List Text :=
  (ls.dropWhile List.isEmpty).rdropWhile List.isEmpty

theorem innerLines_subset (ls : List Text) : innerLines ls ⊆ ls := by
  intro l hl
  exact (List.dropWhile_sublist _).subset ((List.rdropWhile_prefix _ _).subset hl)

theorem exists_innerLines (ls : List Text) :
    ∃ front back, ls = front ++ (innerLines ls ++ back) ∧ (∀ l ∈ front, l = []) ∧
      ∀ l ∈ back, l = [] := by
  refine ⟨ls.takeWhile List.isEmpty, (ls.dropWhile List.isEmpty).rtakeWhile List.isEmpty,
    ?_, ?_, ?_⟩
  · rw [innerLines, List.rdropWhile_append_rtakeWhile, List.takeWhile_append_dropWhile]
  · intro l hl
    exact List.isEmpty_iff.mp (List.mem_takeWhile_imp hl)
  · intro l hl
    exact List.isEmpty_iff.mp (List.mem_rtakeWhile_imp hl)

theorem mem_innerLines {ls : List Text} {l : Text} (h : l ∈ ls) (hn : l ≠ []) :
    l ∈ innerLines ls := by
  obtain ⟨front, back, he, hf, hb⟩ := exists_innerLines ls
  rw [he, List.mem_append, List.mem_append] at h
  rcases h with h | h | h
  · exact absurd (hf l h) hn
  · exact h
  · exact absurd (hb l h) hn

theorem head?_innerLines {ls : List Text} {l : Text} (h : (innerLines ls).head? = some l) :
    l ≠ [] := by
  obtain ⟨rest, hr⟩ := List.head?_eq_some_iff.mp h
  obtain ⟨back, hb⟩ := List.rdropWhile_prefix List.isEmpty (ls.dropWhile List.isEmpty)
  have hd := List.head?_dropWhile_not List.isEmpty ls
  rw [← hb, ← innerLines, hr] at hd
  simpa using hd

theorem getLast?_innerLines {ls : List Text} {l : Text} (h : (innerLines ls).getLast? = some l) :
    l ≠ [] := by
  have hn : innerLines ls ≠ [] := by
    intro he
    rw [he] at h
    cases h
  rw [List.getLast?_eq_some_getLast hn] at h
  cases h
  have hl := List.rdropWhile_last_not List.isEmpty (ls.dropWhile List.isEmpty) hn
  rwa [List.isEmpty_iff] at hl

theorem innerLines_eq_self {ls : List Text} (hf : ls.head? ≠ some [])
    (hl : ls.getLast? ≠ some []) : innerLines ls = ls := by
  have hd : ls.dropWhile List.isEmpty = ls := by
    cases ls with
    | nil => rfl
    | cons l ls => exact List.dropWhile_cons_of_neg (by simpa using hf)
  rw [innerLines, hd, List.rdropWhile_eq_self_iff]
  intro hn he
  rw [List.isEmpty_iff] at he
  exact hl (by rw [List.getLast?_eq_some_getLast hn, he])

/-- Trimming lines that end without white space takes off the empty ones at either end. -/
theorem trim_join {ls : List Text} (h : ∀ l ∈ ls, '\n' ∉ l) (ht : ∀ l ∈ ls, Trimmed l) :
    trimEnd ((join "\n" ls).dropWhile (· == '\n')) = join "\n" (innerLines ls) := by
  rw [dropWhile_join h, trimEnd_join fun l hl => ht l ((List.dropWhile_sublist _).subset hl)]
  rfl

theorem dropBack?_eq_none {back t : Text} (h : ¬ back <:+ t) : dropBack? back t = none := by
  rw [dropBack?, if_neg]
  rwa [List.isSuffixOf_iff_suffix]

theorem dropReturn_of_last {t : Text} {c : Char} (h : c ≠ '\r') :
    dropReturn (t ++ [c]) = t ++ [c] := by
  have hs : ¬ ['\r'] <:+ t ++ [c] := by
    rintro ⟨front, hf⟩
    exact h (List.cons.inj (List.append_inj_right' hf rfl)).1.symm
  rw [dropReturn, dropBack?, if_neg (by rwa [List.isSuffixOf_iff_suffix])]
  rfl

theorem lines_append {a : Text} (b : Text) (h : a.getLast? = some '\n') :
    lines (a ++ b) = lines a ++ lines b := by
  obtain ⟨front, rfl⟩ : ∃ front, a = front ++ ['\n'] := by
    obtain ⟨front, last, rfl⟩ := List.eq_nil_or_concat a |>.resolve_left (by rintro rfl; cases h)
    rw [List.concat_eq_append, List.getLast?_concat, Option.some.injEq] at h
    exact ⟨front, by rw [List.concat_eq_append, h]⟩
  have hn : b.splitOnP (· == '\n') ≠ [] := List.splitOnP_ne_nil _ _
  have hsplit (rest : Text) : (front ++ '\n' :: rest).splitOnP (· == '\n') =
      front.splitOnP (· == '\n') ++ rest.splitOnP (· == '\n') :=
    List.splitOnP_append_cons front rest rfl
  rw [List.append_assoc, List.singleton_append]
  simp only [lines, hsplit, List.splitOnP_nil]
  rw [List.dropLast_append_of_ne_nil hn, List.getLast?_append_of_ne_nil _ hn]
  simp

theorem dropReturn_prefix (t : Text) : dropReturn t <+: t := by
  unfold dropReturn dropBack?
  split
  · exact List.take_prefix _ t
  · exact List.prefix_refl t

theorem lines_line {line : Text} (h : '\n' ∉ line) :
    lines (line ++ ['\n']) = [dropReturn line] := by
  have hl : ∀ c ∈ line, (c == '\n') = false := by
    intro c hc
    rw [beq_eq_false_iff_ne]
    rintro rfl
    exact h hc
  rw [lines, List.splitOnP_append_cons_of_forall_mem hl '\n' rfl]
  simp

theorem lines_flatMap {ls : List Text} (hn : ∀ l ∈ ls, '\n' ∉ l)
    (hr : ∀ l ∈ ls, dropReturn l = l) : lines (ls.flatMap fun l => l ++ ['\n']) = ls := by
  induction ls with
  | nil => rfl
  | cons l ls ih =>
    obtain ⟨hl, hls⟩ := List.forall_mem_cons.mp hn
    obtain ⟨hd, hds⟩ := List.forall_mem_cons.mp hr
    rw [List.flatMap_cons, lines_append _ List.getLast?_concat, lines_line hl, hd, ih hls hds]
    rfl

theorem infix_of_mem_join {separator part : Text} {parts : List Text} (h : part ∈ parts) :
    part <:+: join separator parts := by
  induction parts with
  | nil => cases h
  | cons first rest ih =>
    cases rest with
    | nil =>
      cases List.mem_singleton.mp h
      exact ⟨[], [], by simp [join, List.intercalate_singleton]⟩
    | cons second rest =>
      rw [join_cons_cons]
      rcases List.mem_cons.mp h with rfl | h
      · exact (List.prefix_append _ _).isInfix
      · exact (ih h).trans ⟨first ++ separator, [], by simp⟩

/-- A part of a joined text stands between separators, if there are separators at the ends. -/
theorem infix_join {separator part : Text} {parts : List Text} (h : part ∈ parts) :
    separator ++ part ++ separator <:+: separator ++ join separator parts ++ separator := by
  induction parts with
  | nil => cases h
  | cons first rest ih =>
    cases rest with
    | nil =>
      cases List.mem_singleton.mp h
      exact ⟨[], [], by simp [join, List.intercalate_singleton]⟩
    | cons second rest =>
      rw [join_cons_cons]
      rcases List.mem_cons.mp h with rfl | h
      · exact ⟨[], join separator (second :: rest) ++ separator, by simp⟩
      · refine (ih h).trans ⟨separator ++ first, [], by simp⟩

end Bindery.Text

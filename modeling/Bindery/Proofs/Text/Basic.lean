import Bindery.Position
import Bindery.Text.Blank

namespace Bindery

namespace Text

theorem byteSize_append (s t : Text) : byteSize (s ++ t) = byteSize s + byteSize t := by
  induction s with
  | nil => simp [byteSize]
  | cons c s ih => simp only [List.cons_append, byteSize, ih, Nat.add_assoc]

/-- The text does not begin with a character of the class `p`. -/
def Stops (p : Char → Bool) (t : Text) : Prop :=
  ∀ c, t.head? = some c → p c = false

@[simp] theorem stops_nil (p : Char → Bool) : Stops p [] := by
  intro c hc
  cases hc

@[simp] theorem stops_cons {p : Char → Bool} {c : Char} {t : Text} :
    Stops p (c :: t) ↔ p c = false := by
  simp [Stops]

theorem stops_dropWhile (p : Char → Bool) (t : Text) : Stops p (t.dropWhile p) := by
  induction t with
  | nil => exact stops_nil p
  | cons c t ih =>
    cases hc : p c with
    | true => simpa [hc] using ih
    | false => simp [hc]

theorem takeWhile_eq {p : Char → Bool} {body rest : Text} (hb : ∀ c ∈ body, p c = true)
    (hr : Stops p rest) : (body ++ rest).takeWhile p = body := by
  rw [List.takeWhile_append_of_pos hb]
  cases rest with
  | nil => simp
  | cons c rest => simp [stops_cons.mp hr]

/-- A text of the class `p` before a stop holds every front of that class. -/
theorem Stops.prefix_of_append {p : Char → Bool} {t rest front back : Text}
    (hr : Stops p rest) (hf : ∀ c ∈ front, p c = true) (h : t ++ rest = front ++ back) :
    front <+: t := by
  rcases List.append_eq_append_iff.mp h with ⟨more, rfl, hm⟩ | ⟨more, rfl, _⟩
  · cases more with
    | nil => simp
    | cons c more =>
      have hc := hf c (by simp)
      rw [hm] at hr
      rw [stops_cons.mp hr] at hc
      cases hc
  · exact List.prefix_append front more

/-- A text falls into its longest front of the class `p` and a rest that stops. -/
theorem exists_front (p : Char → Bool) (t : Text) :
    ∃ body rest, t = body ++ rest ∧ (t.takeWhile p).length = body.length ∧
      (∀ c ∈ body, p c = true) ∧ Stops p rest := by
  refine ⟨t.takeWhile p, t.dropWhile p, ?_, rfl, ?_, stops_dropWhile p t⟩
  · exact List.takeWhile_append_dropWhile.symm
  · exact List.all_eq_true.mp List.all_takeWhile

/-- `needle` occurs in `front ++ needle` at its end only. -/
def FirstAt (needle front : Text) : Prop :=
  ∀ before after, front ++ needle = before ++ needle ++ after → after = []

theorem FirstAt.tail {needle front : Text} {c : Char} (h : FirstAt needle (c :: front)) :
    FirstAt needle front := by
  intro before after he
  apply h (c :: before) after
  rw [List.cons_append, he]
  rfl

theorem FirstAt.not_prefix {needle front : Text} {c : Char} (h : FirstAt needle (c :: front))
    (rest : Text) : ¬ needle <+: c :: (front ++ needle ++ rest) := by
  intro hp
  have hq : c :: front ++ needle <+: c :: (front ++ needle ++ rest) := by simp
  have hl : needle.length ≤ (c :: front ++ needle).length := by simp; omega
  obtain ⟨after, ha⟩ := List.prefix_of_prefix_length_le hp hq hl
  have hn := h [] after ha.symm
  subst hn
  have he := congrArg List.length ha
  simp only [List.append_nil, List.length_append, List.length_cons] at he
  omega

theorem find?_complete {needle front : Text} (h : FirstAt needle front) (rest : Text) :
    find? needle (front ++ needle ++ rest) = some front.length := by
  induction front with
  | nil =>
    have hp : needle.isPrefixOf (needle ++ rest) = true :=
      List.isPrefixOf_iff_prefix.mpr (List.prefix_append _ _)
    cases hn : needle ++ rest with
    | nil =>
      obtain ⟨rfl, rfl⟩ := List.append_eq_nil_iff.mp hn
      rfl
    | cons d t =>
      rw [hn] at hp
      simp [hn, find?, hp]
  | cons c front ih =>
    have hp : needle.isPrefixOf (c :: (front ++ needle ++ rest)) = false := by
      rw [Bool.eq_false_iff]
      exact fun hp => h.not_prefix rest (List.isPrefixOf_iff_prefix.mp hp)
    simp only [List.cons_append, find?, hp, ih h.tail]
    rfl

theorem find?_sound {needle t : Text} {n : Nat} (h : find? needle t = some n) :
    ∃ front rest, t = front ++ needle ++ rest ∧ front.length = n ∧ FirstAt needle front := by
  induction t generalizing n with
  | nil =>
    cases needle with
    | nil =>
      cases h
      exact ⟨[], [], rfl, rfl, fun before after he => by simp at he; exact he.2⟩
    | cons d needle => cases h
  | cons c t ih =>
    unfold find? at h
    split at h
    · rename_i hp
      cases h
      obtain ⟨rest, hr⟩ := List.isPrefixOf_iff_prefix.mp hp
      refine ⟨[], rest, hr.symm, rfl, ?_⟩
      intro before after he
      have hl := congrArg List.length he
      simp only [List.nil_append, List.length_append] at hl
      exact List.eq_nil_of_length_eq_zero (by omega)
    · rename_i hp
      obtain ⟨m, hm, rfl⟩ := Option.map_eq_some_iff.mp h
      obtain ⟨front, rest, rfl, rfl, hf⟩ := ih hm
      refine ⟨c :: front, rest, rfl, rfl, ?_⟩
      intro before after he
      cases before with
      | nil =>
        refine absurd (List.isPrefixOf_iff_prefix.mpr ?_) hp
        exact ⟨after ++ rest, by simpa using congrArg (· ++ rest) he.symm⟩
      | cons d before =>
        simp only [List.cons_append, List.cons.injEq] at he
        exact hf before after he.2

theorem find?_none {needle t : Text} (h : find? needle t = none) : ¬ needle <:+: t := by
  rintro ⟨front, rest, rfl⟩
  induction front with
  | nil =>
    have hf : FirstAt needle [] := by
      intro before after he
      have hl := congrArg List.length he
      simp only [List.nil_append, List.length_append] at hl
      exact List.eq_nil_of_length_eq_zero (by omega)
    have hc := find?_complete hf rest
    rw [hc] at h
    cases h
  | cons c front ih =>
    simp only [List.cons_append, find?] at h
    split at h
    · cases h
    · exact ih (Option.map_eq_none_iff.mp h)

def blankPoints : List Nat :=
  List.range' 9 5 ++ List.range' 0x2000 11 ++
    [0x20, 0x85, 0xA0, 0x1680, 0x2028, 0x2029, 0x202F, 0x205F, 0x3000]

theorem mem_blankPoints {c : Char} (h : isBlank c = true) : c.toNat ∈ blankPoints := by
  simp only [isBlank, Bool.or_eq_true, Bool.and_eq_true, decide_eq_true_eq, beq_iff_eq] at h
  simp only [blankPoints, List.mem_append, List.mem_range'_1, List.mem_cons, List.not_mem_nil,
    or_false]
  omega

/-- A run of white space that is not empty. -/
structure IsGap (w : Text) : Prop where
  nonempty : w ≠ []
  blank : ∀ c ∈ w, isBlank c = true

theorem isGap_iff {w : Text} : IsGap w ↔ w ≠ [] ∧ w.all isBlank = true :=
  ⟨fun h => ⟨h.nonempty, List.all_eq_true.mpr h.blank⟩, fun h => ⟨h.1, List.all_eq_true.mp h.2⟩⟩

instance (w : Text) : Decidable (IsGap w) :=
  decidable_of_iff _ isGap_iff.symm

theorem IsGap.not_mem {w : Text} (h : IsGap w) {c : Char} (hc : isBlank c = false) : c ∉ w := by
  intro hm
  rw [h.blank c hm] at hc
  cases hc

theorem trimEnd_append_blank {t w : Text} (h : ∀ c ∈ w, isBlank c = true) :
    trimEnd (t ++ w) = trimEnd t := by
  have hr : ∀ c ∈ w.reverse, isBlank c = true := by simpa using h
  rw [trimEnd, List.reverse_append, List.dropWhile_append_of_pos hr, trimEnd]

theorem trimEnd_append_cons {c : Char} (h : isBlank c = false) (t more : Text) :
    trimEnd (t ++ c :: more) = t ++ c :: trimEnd more := by
  rw [trimEnd, List.reverse_append, List.reverse_cons, List.append_assoc, List.dropWhile_append,
    trimEnd]
  split
  · rename_i he
    rw [List.isEmpty_iff.mp he]
    simp [h]
  · simp

theorem trimStart_append {t : Text} (h : isBlankText t = false) (rest : Text) :
    trimStart (t ++ rest) = trimStart t ++ rest := by
  induction t with
  | nil => cases h
  | cons c t ih =>
    cases hc : isBlank c with
    | true =>
      have ht : isBlankText t = false := by simpa [isBlankText, hc] using h
      simpa [trimStart, hc] using ih ht
    | false => simp [trimStart, hc]

theorem splitLast?_eq_none_iff {c : Char} {t : Text} : splitLast? c t = none ↔ c ∉ t := by
  induction t with
  | nil => simp [splitLast?]
  | cons d t ih =>
    rw [splitLast?]
    split
    · rename_i hs
      have hm : c ∈ t := by
        rw [← Decidable.not_not (p := c ∈ t), ← ih, hs]
        simp
      simp [hm]
    · rename_i hs
      have hm : c ∉ t := ih.mp hs
      simp [hm, eq_comm]

theorem splitLast?_sound {c : Char} {t before after : Text}
    (h : splitLast? c t = some (before, after)) : t = before ++ c :: after ∧ c ∉ after := by
  induction t generalizing before after with
  | nil => cases h
  | cons d t ih =>
    rw [splitLast?] at h
    split at h
    · rename_i hs
      cases h
      obtain ⟨rfl, ha⟩ := ih hs
      exact ⟨rfl, ha⟩
    · rename_i hs
      split at h
      · rename_i hd
        cases h
        subst hd
        exact ⟨rfl, splitLast?_eq_none_iff.mp hs⟩
      · cases h

theorem join_cons_cons (separator first second : Text) (rest : List Text) :
    join separator (first :: second :: rest) =
      first ++ (separator ++ join separator (second :: rest)) := by
  rw [join, join, List.intercalate_cons_cons, List.append_assoc]

theorem Stops.append {p : Char → Bool} {c : Char} {t : Text} (h : Stops p (c :: t))
    (tail : Text) : Stops p (c :: t ++ tail) :=
  Text.stops_cons.mpr (Text.stops_cons.mp h)

theorem Stops.front {p : Char → Bool} {t u : Text} (h : Stops p (t ++ u)) : Stops p t := by
  cases t with
  | nil => exact Text.stops_nil p
  | cons c t => simpa using h

theorem Stops.append_of_forall {p : Char → Bool} {t rest : Text} (h : ∀ c ∈ t, p c = false)
    (hr : Stops p rest) : Stops p (t ++ rest) := by
  cases t with
  | nil => exact hr
  | cons c t => exact stops_cons.mpr (h c List.mem_cons_self)

theorem stops_eq_iff {c : Char} {t : Text} : Stops (· == c) t ↔ t.head? ≠ some c := by
  constructor
  · intro h hc
    exact absurd (h c hc) (by simp)
  · intro h d hd
    refine beq_false_of_ne ?_
    rintro rfl
    exact h hd

theorem dropWhile_replicate_append {c : Char} (n : Nat) {t : Text} (h : Stops (· == c) t) :
    (List.replicate n c ++ t).dropWhile (· == c) = t := by
  have hr : ∀ d ∈ List.replicate n c, (d == c) = true := by
    intro d hd
    simpa using List.eq_of_mem_replicate hd
  rw [List.dropWhile_append_of_pos hr]
  cases t with
  | nil => rfl
  | cons d t => rw [List.dropWhile_cons_of_neg (by simpa using h)]

theorem exists_replicate_dropWhile (c : Char) (t : Text) :
    ∃ n, t = List.replicate n c ++ t.dropWhile (· == c) := by
  induction t with
  | nil => exact ⟨0, rfl⟩
  | cons d t ih =>
    by_cases hd : d = c
    · obtain ⟨n, hn⟩ := ih
      refine ⟨n + 1, ?_⟩
      rw [List.dropWhile_cons_of_pos (by simpa using hd), List.replicate_succ, List.cons_append,
        ← hn, hd]
    · exact ⟨0, by rw [List.dropWhile_cons_of_neg (by simpa using hd)]; rfl⟩

theorem replaceChar_cons (c d : Char) (replacement t : Text) :
    Text.replaceChar c replacement (d :: t) =
      (if d = c then replacement else [d]) ++ Text.replaceChar c replacement t :=
  List.flatMap_cons

theorem splitLast?_append {c : Char} {t : Text} (h : c ∉ t) (s : Text) :
    splitLast? c (s ++ c :: t) = some (s, t) := by
  induction s with
  | nil => rw [List.nil_append, splitLast?, splitLast?_eq_none_iff.mpr h, if_pos rfl]
  | cons d s ih => rw [List.cons_append, splitLast?, ih]

/-- What stands behind the last occurrence does not change the part before it. -/
theorem fst_splitLast?_append {c : Char} {t : Text} (h : c ∉ t) (s : Text) :
    (splitLast? c (s ++ t)).map Prod.fst = (splitLast? c s).map Prod.fst := by
  cases hs : splitLast? c s with
  | none =>
    have hn : c ∉ s ++ t := by
      rw [List.mem_append, not_or]
      exact ⟨splitLast?_eq_none_iff.mp hs, h⟩
    rw [splitLast?_eq_none_iff.mpr hn]
  | some parts =>
    obtain ⟨before, after⟩ := parts
    obtain ⟨rfl, ha⟩ := splitLast?_sound hs
    have hn : c ∉ after ++ t := by
      rw [List.mem_append, not_or]
      exact ⟨ha, h⟩
    rw [List.append_assoc, List.cons_append, splitLast?_append hn]
    rfl

/-- A text is white space, or its last other character stands before nothing but white space. -/
theorem exists_last_of_not_blank (t : Text) : (∀ c ∈ t, isBlank c = true) ∨
    ∃ body c back, t = body ++ c :: back ∧ isBlank c = false ∧ ∀ d ∈ back, isBlank d = true := by
  induction t with
  | nil => exact .inl (List.forall_mem_nil _)
  | cons c t ih =>
    rcases ih with ht | ⟨body, d, back, rfl, hd, hb⟩
    · cases hc : isBlank c with
      | true => exact .inl (List.forall_mem_cons.mpr ⟨hc, ht⟩)
      | false => exact .inr ⟨[], c, t, rfl, hc, ht⟩
    · exact .inr ⟨c :: body, d, back, rfl, hd, hb⟩

theorem words_append_gap {w : Text} (h : IsGap w) (s t : Text) :
    words (s ++ (w ++ t)) = words s ++ words t := by
  have hcut {c : Char} (hc : isBlank c = true) (s t : Text) :
      words (s ++ c :: t) = words s ++ words t := by
    rw [words, List.splitOnP_append_cons s t hc, List.filter_append, words, words]
  have hskip {w : Text} (hw : ∀ c ∈ w, isBlank c = true) : words (w ++ t) = words t := by
    induction w with
    | nil => rfl
    | cons c w ih =>
      obtain ⟨hc, hw⟩ := List.forall_mem_cons.mp hw
      exact (hcut hc [] (w ++ t)).trans (ih hw)
  obtain ⟨c, w, rfl⟩ := List.exists_cons_of_ne_nil h.nonempty
  obtain ⟨hc, hw⟩ := List.forall_mem_cons.mp h.blank
  rw [List.cons_append, hcut hc, hskip hw]

end Text

theorem Position.line_advance (p : Position) (t : Text) :
    (p.advance t).line = p.line + Text.newlines t := by
  induction t generalizing p with
  | nil => rfl
  | cons c t ih =>
    rw [advance_cons, ih, next, Text.newlines, Text.newlines, List.count_cons]
    by_cases hc : c = '\n'
    · simp [hc]
      omega
    · simp [hc]

end Bindery

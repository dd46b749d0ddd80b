import Bindery.Proofs.Nesting
import Bindery.Proofs.Text.Cut
import Bindery.Proofs.Text.Lines
import Bindery.Proofs.Text.Lowering
import Bindery.Type.Reference

namespace Bindery

namespace Text

/-- Every parenthesis of a text is closed in it, and none is that was not open. -/
def IsBalanced (t : Text) : Prop :=
  Balanced BEq.beq '(' ')' t

theorem isBalanced_iff {t : Text} : IsBalanced t ↔ depthAfter? BEq.beq '(' ')' 0 t = some 0 := by
  apply balanced_iff
  · intro x c d hc hd
    exact (beq_iff_eq.mp hc).symm.trans (beq_iff_eq.mp hd)
  · decide

instance (t : Text) : Decidable (IsBalanced t) :=
  decidable_of_iff _ isBalanced_iff.symm

end Text

namespace TypeRef

open Text

/-- How many parentheses are open behind a text; a closing one too many counts for nothing. -/
def openModifiers (depth : Nat) (t : Text) : Nat :=
  t.foldl (fun d c => if c = '(' then d + 1 else if c = ')' then d - 1 else d) depth

theorem dropModifiers_append (depth : Nat) (s t : Text) :
    dropModifiers depth (s ++ t) =
      dropModifiers depth s ++ dropModifiers (openModifiers depth s) t := by
  induction s generalizing depth with
  | nil => rfl
  | cons c s ih =>
    rw [List.cons_append, dropModifiers, dropModifiers, openModifiers, List.foldl_cons]
    by_cases ho : c = '('
    · rw [if_pos ho, if_pos ho, if_pos ho, ih]
      rfl
    · rw [if_neg ho, if_neg ho, if_neg ho]
      by_cases hc : c = ')'
      · rw [if_pos hc, if_pos hc, if_pos hc, ih]
        rfl
      · rw [if_neg hc, if_neg hc, if_neg hc]
        by_cases hd : depth = 0
        · rw [if_pos hd, if_pos hd, ih]
          rfl
        · rw [if_neg hd, if_neg hd, ih]
          rfl

theorem dropModifiers_eq {t : Text} (ho : '(' ∉ t) (hc : ')' ∉ t) : dropModifiers 0 t = t := by
  induction t with
  | nil => rfl
  | cons c t ih =>
    rw [List.mem_cons, not_or] at ho hc
    rw [dropModifiers, if_neg (Ne.symm ho.1), if_neg (Ne.symm hc.1), if_pos rfl, ih ho.2 hc.2]

theorem dropModifiers_open {t : Text} (ho : '(' ∉ t) (hc : ')' ∉ t) (depth : Nat) :
    dropModifiers (depth + 1) t = [] := by
  induction t with
  | nil => rfl
  | cons c t ih =>
    rw [List.mem_cons, not_or] at ho hc
    rw [dropModifiers, if_neg (Ne.symm ho.1), if_neg (Ne.symm hc.1),
      if_neg (Nat.succ_ne_zero depth), ih ho.2 hc.2]

theorem openModifiers_eq {t : Text} (ho : '(' ∉ t) (hc : ')' ∉ t) (depth : Nat) :
    openModifiers depth t = depth := by
  induction t with
  | nil => rfl
  | cons c t ih =>
    rw [List.mem_cons, not_or] at ho hc
    have hstep : openModifiers depth (c :: t) = openModifiers depth t := by
      rw [openModifiers, List.foldl_cons, if_neg (Ne.symm ho.1), if_neg (Ne.symm hc.1)]
      rfl
    rw [hstep, ih ho.2 hc.2]

theorem dropModifiers_inside {depth deep : Nat} {m : Text}
    (h : depthAfter? BEq.beq '(' ')' depth m = some deep) (rest : Text) :
    dropModifiers (depth + 1) (m ++ rest) = dropModifiers (deep + 1) rest := by
  induction m generalizing depth with
  | nil =>
    cases h
    rfl
  | cons c m ih =>
    rw [depthAfter?] at h
    rw [List.cons_append, dropModifiers]
    by_cases ho : c = '('
    · rw [if_pos (beq_iff_eq.mpr ho)] at h
      rw [if_pos ho, ih h]
    · rw [if_neg (mt beq_iff_eq.mp ho)] at h
      rw [if_neg ho]
      by_cases hc : c = ')'
      · rw [if_pos (beq_iff_eq.mpr hc)] at h
        rw [if_pos hc]
        cases depth with
        | zero => cases h
        | succ depth => exact ih h
      · rw [if_neg (mt beq_iff_eq.mp hc)] at h
        rw [if_neg hc, if_neg (Nat.succ_ne_zero depth), ih h]

theorem dropModifiers_modifier {m : Text} (h : IsBalanced m) (rest : Text) :
    dropModifiers 0 ('(' :: (m ++ ')' :: rest)) = dropModifiers 0 rest := by
  have hi := dropModifiers_inside (isBalanced_iff.mp h) (')' :: rest)
  rw [dropModifiers, if_pos rfl]
  exact hi

/-- Reads a type in small letters without modifiers. -/
def ofPlain (t : Text) : TypeRef :=
  ⟨(singleSpaced (splitDimensions t).1).filter (· != '"'), (splitDimensions t).2⟩

theorem parse_eq (raw : Text) : parse raw = ofPlain (lower (dropModifiers 0 raw)) := rfl

def array (r : TypeRef) : TypeRef :=
  ⟨r.base, r.dimensions + 1⟩

theorem ofPlain_of_some {t front : Text} (h : dropDimension? t = some front) :
    ofPlain t = (ofPlain front).array := by
  have hs : splitDimensions t = ((splitDimensions front).1, (splitDimensions front).2 + 1) := by
    rw [splitDimensions]
    split
    · rename_i hf
      rw [h] at hf
      cases hf
      rfl
    · rename_i hf
      rw [h] at hf
      cases hf
  rw [ofPlain, hs]
  rfl

theorem ofPlain_of_none {t : Text} (h : dropDimension? t = none) :
    ofPlain t = ⟨(singleSpaced t).filter (· != '"'), 0⟩ := by
  have hs : splitDimensions t = (t, 0) := by
    rw [splitDimensions]
    split
    · rename_i hf
      rw [h] at hf
      cases hf
    · rfl
  rw [ofPlain, hs]

/-- Texts that are read the same are those with the same suffix to take off, or the same words. -/
theorem ofPlain_congr {s t : Text} (hd : dropDimension? s = dropDimension? t)
    (hw : words s = words t) : ofPlain s = ofPlain t := by
  cases h : dropDimension? t with
  | none => rw [ofPlain_of_none h, ofPlain_of_none (hd.trans h), singleSpaced, singleSpaced, hw]
  | some front => rw [ofPlain_of_some h, ofPlain_of_some (hd.trans h)]

theorem dropDimension?_congr {s t : Text} (h : trimEnd s = trimEnd t) :
    dropDimension? s = dropDimension? t := by
  unfold dropDimension?
  rw [h]

theorem dropDimension?_bracket (t back : Text) (hb : ∀ c ∈ back, isBlank c = true) :
    dropDimension? (t ++ ']' :: back) = (splitLast? '[' t).map Prod.fst := by
  have ht : trimEnd (t ++ ']' :: back) = t ++ ("]" : Text) := by
    rw [trimEnd_append_cons (by decide), ← List.nil_append back, trimEnd_append_blank hb]
    rfl
  unfold dropDimension?
  dsimp only
  rw [ht, dropBack?_append]

theorem dropDimension?_other {c : Char} (hc : c ≠ ']') (hn : isBlank c = false) (t back : Text)
    (hb : ∀ c ∈ back, isBlank c = true) :
    dropDimension? (t ++ c :: back) =
      (dropBack? "array" (t ++ [c])).filter fun front => front.getLast?.any isBlank := by
  have ht : trimEnd (t ++ c :: back) = t ++ [c] := by
    rw [trimEnd_append_cons hn, ← List.nil_append back, trimEnd_append_blank hb]
    rfl
  have hs : ¬ ("]" : Text) <:+ t ++ [c] := by
    intro hs
    obtain ⟨front, hf⟩ := hs
    have hl := List.append_inj_right' hf rfl
    exact hc (List.singleton_inj.mp hl).symm
  unfold dropDimension?
  dsimp only
  rw [ht, dropBack?_eq_none hs]

/-- A word behind a gap ends the whole text only if it ends what follows the gap. -/
theorem suffix_of_append_gap {word w s t : Text} (hword : ∀ c ∈ word, isBlank c = false)
    (hw : IsGap w) (h : word <:+ s ++ (w ++ t)) : word <:+ t := by
  obtain ⟨front, hf⟩ := h
  rw [← List.append_assoc] at hf
  rcases List.append_eq_append_iff.mp hf with ⟨more, hs, rfl⟩ | ⟨more, -, rfl⟩
  · rcases List.eq_nil_or_concat more with rfl | ⟨more, c, rfl⟩
    · exact List.suffix_rfl
    · have hl := congrArg List.getLast? hs
      rw [List.getLast?_append_of_ne_nil _ hw.nonempty, List.concat_eq_append, ← List.append_assoc,
        List.getLast?_concat] at hl
      have hc := hw.blank c (List.mem_of_getLast? hl)
      have hc' := hword c (by simp)
      rw [hc] at hc'
      cases hc'
  · exact List.suffix_append more word

/--
What comes of taking off an array suffix does not depend on the gap between two texts: it is the
same for all gaps, or only something behind the gap is taken off.
-/
def Respaces (s t : Text) : Prop :=
  (∃ outcome, ∀ w, IsGap w → dropDimension? (s ++ (w ++ t)) = outcome) ∨
    ∃ front : Text, front.length < t.length ∧
      ∀ w, IsGap w → dropDimension? (s ++ (w ++ t)) = some (s ++ (w ++ front))

theorem respaces_bracket (s body : Text) {back : Text} (hb : ∀ c ∈ back, isBlank c = true) :
    Respaces s (body ++ ']' :: back) := by
  have hdrop (w : Text) : dropDimension? (s ++ (w ++ (body ++ ']' :: back))) =
      (splitLast? '[' (s ++ (w ++ body))).map Prod.fst := by
    rw [← dropDimension?_bracket _ _ hb]
    simp only [List.append_assoc]
  cases hopen : splitLast? '[' body with
  | some parts =>
    obtain ⟨front, inner⟩ := parts
    obtain ⟨rfl, hi⟩ := splitLast?_sound hopen
    refine .inr ⟨front, by simp only [List.length_append, List.length_cons]; omega, ?_⟩
    intro w hw
    rw [hdrop, ← List.append_assoc, ← List.append_assoc, splitLast?_append hi]
    simp only [Option.map_some, List.append_assoc]
  | none =>
    refine .inl ⟨(splitLast? '[' s).map Prod.fst, ?_⟩
    intro w hw
    have hout : '[' ∉ w ++ body := by
      rw [List.mem_append, not_or]
      exact ⟨hw.not_mem (by decide), splitLast?_eq_none_iff.mp hopen⟩
    rw [hdrop, fst_splitLast?_append hout]

/-- Whether the word `array` stands by itself is seen at the end of what is left. -/
theorem blank_getLast?_append_gap {w : Text} (hw : IsGap w) (s front : Text) :
    (s ++ (w ++ front)).getLast?.any isBlank = front.getLast?.all isBlank := by
  have hl := List.getLast?_eq_some_getLast hw.nonempty
  have hb := hw.blank _ (List.getLast_mem hw.nonempty)
  rcases List.eq_nil_or_concat front with rfl | ⟨front, c, rfl⟩
  · rw [List.append_nil, List.getLast?_append_of_ne_nil _ hw.nonempty, hl]
    exact hb
  · rw [List.concat_eq_append, ← List.append_assoc, ← List.append_assoc, List.getLast?_concat,
      List.getLast?_concat]
    rfl

theorem respaces_word (s body : Text) {c : Char} {back : Text} (hc : c ≠ ']')
    (hn : isBlank c = false) (hb : ∀ c ∈ back, isBlank c = true) :
    Respaces s (body ++ c :: back) := by
  have hdrop (w : Text) : dropDimension? (s ++ (w ++ (body ++ c :: back))) =
      (dropBack? "array" (s ++ (w ++ (body ++ [c])))).filter
        fun front => front.getLast?.any isBlank := by
    have hd := dropDimension?_other hc hn (s ++ (w ++ body)) back hb
    simpa only [List.append_assoc] using hd
  by_cases hsuffix : ("array" : Text) <:+ body ++ [c]
  · obtain ⟨front, hfront⟩ := hsuffix
    have hback (w : Text) : dropBack? "array" (s ++ (w ++ (body ++ [c]))) =
        some (s ++ (w ++ front)) := by
      rw [← hfront, ← List.append_assoc, ← List.append_assoc, dropBack?_append, List.append_assoc]
    by_cases hlast : front.getLast?.all isBlank = true
    · refine .inr ⟨front, ?_, ?_⟩
      · have hl := congrArg List.length hfront
        simp only [List.length_append, List.length_cons, List.length_nil, String.reduceToList]
          at hl ⊢
        omega
      · intro w hw
        rw [hdrop, hback, Option.filter_some_pos]
        rw [blank_getLast?_append_gap hw, hlast]
    · refine .inl ⟨none, ?_⟩
      intro w hw
      rw [hdrop, hback, Option.filter_some_neg]
      rw [blank_getLast?_append_gap hw]
      exact Bool.eq_false_iff.mpr hlast
  · refine .inl ⟨none, ?_⟩
    intro w hw
    have harray : ∀ d ∈ ("array" : Text), isBlank d = false := not_blank_of_all (by decide)
    have hnone : ¬ ("array" : Text) <:+ s ++ (w ++ (body ++ [c])) :=
      fun h => hsuffix (suffix_of_append_gap harray hw h)
    rw [hdrop, dropBack?_eq_none hnone]
    rfl

theorem respaces (s t : Text) : Respaces s t := by
  rcases exists_last_of_not_blank t with ht | ⟨body, c, back, rfl, hc, hb⟩
  · refine .inl ⟨dropDimension? s, ?_⟩
    intro w hw
    apply dropDimension?_congr
    rw [← List.append_assoc, trimEnd_append_blank ht, trimEnd_append_blank hw.blank]
  · by_cases hclose : c = ']'
    · rw [hclose]
      exact respaces_bracket s body hb
    · exact respaces_word s body hclose hc hb

/-- A type is read the same whatever gap stands at a place. -/
theorem ofPlain_respaced {w w' : Text} (hw : IsGap w) (hw' : IsGap w') (s t : Text) :
    ofPlain (s ++ (w ++ t)) = ofPlain (s ++ (w' ++ t)) := by
  -- What is read off behind the gap gets shorter until the gap is read off or stays for good.
  induction hn : t.length using Nat.strongRecOn generalizing t with
  | ind n ih =>
    rcases respaces s t with ⟨outcome, h⟩ | ⟨front, hl, h⟩
    · apply ofPlain_congr
      · rw [h w hw, h w' hw']
      · rw [words_append_gap hw, words_append_gap hw']
    · rw [ofPlain_of_some (h w hw), ofPlain_of_some (h w' hw'), ih front.length (hn ▸ hl) front rfl]

theorem ofPlain_append_gap {w : Text} (hw : IsGap w) (t : Text) : ofPlain (t ++ w) = ofPlain t := by
  apply ofPlain_congr
  · apply dropDimension?_congr
    exact trimEnd_append_blank hw.blank
  · have hs := words_append_gap hw t []
    rwa [List.append_nil, show words [] = [] from rfl, List.append_nil] at hs

/-- A text without parentheses is kept behind one that leaves none open. -/
theorem parse_append {r t : Text} (hr : openModifiers 0 r = 0) (ho : '(' ∉ t) (hc : ')' ∉ t) :
    parse (r ++ t) = ofPlain (lower (dropModifiers 0 r ++ t)) := by
  rw [parse_eq, dropModifiers_append, hr, dropModifiers_eq ho hc]

theorem parse_append_brackets {r n : Text} (hr : openModifiers 0 r = 0) (hn : '[' ∉ n)
    (ho : '(' ∉ n) (hc : ')' ∉ n) : parse (r ++ '[' :: (n ++ [']'])) = (parse r).array := by
  have hlower (t : Text) :
      lower (t ++ '[' :: (n ++ [']'])) = lower t ++ '[' :: lower n ++ [']'] := by
    have hopen : Caseless '[' := ⟨by decide, by decide⟩
    have hclose : Caseless ']' := ⟨by decide, by decide⟩
    rw [lower_append_caseless hopen, lower_append_caseless hclose, List.append_assoc]
    rfl
  have hdrop : dropDimension? (lower (dropModifiers 0 r) ++ '[' :: lower n ++ [']']) =
      some (lower (dropModifiers 0 r)) := by
    rw [dropDimension?_bracket _ _ (List.forall_mem_nil _),
      splitLast?_append (bracket_not_mem_lower hn)]
    rfl
  rw [parse_append hr (by simpa using ho) (by simpa using hc), hlower, ofPlain_of_some hdrop,
    parse_eq]

theorem parse_append_array {r : Text} (hr : openModifiers 0 r = 0) :
    parse (r ++ " ARRAY") = (parse r).array := by
  have hgap : IsGap [' '] := by decide
  have hlower (t : Text) : lower (t ++ " ARRAY") = t.lower ++ [' '] ++ "array" := by
    rw [List.append_assoc, ← show lower "ARRAY" = "array".toList by decide, ← lower_append_gap hgap]
    rfl
  have hdrop (t : Text) : dropDimension? (t ++ [' '] ++ "array") = some (t ++ [' ']) := by
    have hy : t ++ [' '] ++ "array" = (t ++ [' '] ++ "arra") ++ ['y'] := by simp
    rw [hy, dropDimension?_other (by decide) (by decide) _ _ (List.forall_mem_nil _), ← hy,
      dropBack?_append, Option.filter_some_pos]
    rw [List.getLast?_concat]
    rfl
  rw [parse_append hr (by decide) (by decide), hlower, ofPlain_of_some (hdrop _),
    ofPlain_append_gap hgap, parse_eq]

theorem parse_insert_modifier {r s m : Text} (hr : openModifiers 0 r = 0) (hm : IsBalanced m) :
    parse (r ++ ('(' :: (m ++ ')' :: s))) = parse (r ++ s) := by
  rw [parse_eq, dropModifiers_append, hr, dropModifiers_modifier hm, parse_eq,
    dropModifiers_append, hr]

theorem parse_respaced {w w' : Text} (hw : IsGap w) (hw' : IsGap w') (r s : Text) :
    parse (r ++ (w ++ s)) = parse (r ++ (w' ++ s)) := by
  have hdrop {w : Text} (ho : '(' ∉ w) (hc : ')' ∉ w) : dropModifiers 0 (r ++ (w ++ s)) =
      dropModifiers 0 r ++ (dropModifiers (openModifiers 0 r) w ++
        dropModifiers (openModifiers 0 r) s) := by
    rw [dropModifiers_append, dropModifiers_append, openModifiers_eq ho hc]
  have ho : '(' ∉ w ∧ '(' ∉ w' := ⟨hw.not_mem (by decide), hw'.not_mem (by decide)⟩
  have hc : ')' ∉ w ∧ ')' ∉ w' := ⟨hw.not_mem (by decide), hw'.not_mem (by decide)⟩
  rw [parse_eq, parse_eq, hdrop ho.1 hc.1, hdrop ho.2 hc.2]
  cases openModifiers 0 r with
  | zero =>
    rw [dropModifiers_eq ho.1 hc.1, dropModifiers_eq ho.2 hc.2, lower_append_gap hw,
      lower_append_gap hw', ofPlain_respaced hw hw']
  | succ depth => rw [dropModifiers_open ho.1 hc.1, dropModifiers_open ho.2 hc.2]

/--
Type references decompose. Behind a text that leaves no parenthesis open, brackets without a further
opening one or parentheses between them add a dimension, and so does the word `ARRAY`. A balanced
modifier changes nothing where no parenthesis is open, and it does not matter of what characters a
gap is made.
-/
theorem parse_decomposes (r : Text) :
    (openModifiers 0 r = 0 →
      (∀ n : Text, '[' ∉ n → '(' ∉ n → ')' ∉ n →
        parse (r ++ ("[" ++ n ++ "]")) = ⟨(parse r).base, (parse r).dimensions + 1⟩) ∧
      parse (r ++ " ARRAY") = ⟨(parse r).base, (parse r).dimensions + 1⟩) ∧
    (∀ front back m : Text, r = front ++ back → openModifiers 0 front = 0 → IsBalanced m →
      parse (front ++ ("(" ++ m ++ ")") ++ back) = parse r) ∧
    ∀ front w w' back : Text, r = front ++ w ++ back → IsGap w → IsGap w' →
      parse (front ++ w' ++ back) = parse r := by
  refine ⟨?_, ?_, ?_⟩
  · intro hr
    refine ⟨?_, parse_append_array hr⟩
    intro n hn ho hc
    exact parse_append_brackets hr hn ho hc
  · rintro front back m rfl hf hm
    have hi := parse_insert_modifier (s := back) hf hm
    simpa using hi
  · rintro front w w' back rfl hw hw'
    rw [List.append_assoc, List.append_assoc]
    exact parse_respaced hw' hw front back

/-- A word that ends in a sigma, a closing parenthesis too many and suffixes of both forms. -/
theorem parse_decomposes_of_suffixes :
    parse "ΟΔΟΣ) [x]\t array" = ⟨"οδος", 2⟩ ∧
      parse ("ΟΔΟΣ) [x]\t array" ++ ("[" ++ "3 array" ++ "]")) = ⟨"οδος", 3⟩ ∧
      parse ("ΟΔΟΣ) [x]\t array" ++ " ARRAY") = ⟨"οδος", 3⟩ ∧
      parse ("ΟΔΟΣ)" ++ ("(" ++ "1, (2)" ++ ")") ++ " [x]\t array") = ⟨"οδος", 2⟩ ∧
      parse ("ΟΔΟΣ) [x]" ++ "\n" ++ "array") = ⟨"οδος", 2⟩ := by
  have h : parse "ΟΔΟΣ) [x]\t array" = ⟨"οδος", 2⟩ := by decide +kernel
  obtain ⟨hsuffix, hmodifier, hgap⟩ := parse_decomposes "ΟΔΟΣ) [x]\t array"
  obtain ⟨hbrackets, harray⟩ := hsuffix (by decide)
  refine ⟨h, ?_, ?_, ?_, ?_⟩
  · rw [hbrackets "3 array" (by decide) (by decide) (by decide), h]
  · rw [harray, h]
  · rw [hmodifier "ΟΔΟΣ)" " [x]\t array" "1, (2)" (by decide) (by decide) (by decide), h]
  · rw [hgap "ΟΔΟΣ) [x]" "\t " "\n" "array" (by decide) (by decide) (by decide), h]

end TypeRef

end Bindery

import Bindery.Name.Grant
import Mathlib.Data.List.Nodup

namespace Bindery

theorem Text.ofNat_injective : Function.Injective Text.ofNat := by
  intro m n h
  have hd : Nat.ofDigitChars 10 (Text.ofNat m) 0 = Nat.ofDigitChars 10 (Text.ofNat n) 0 := by rw [h]
  rwa [ofNat, ofNat, Nat.ofDigitChars_ten_toDigits, Nat.ofDigitChars_ten_toDigits] at hd

/-- A request comes down to a name: it wants the name, or falls back on it. -/
def Request.AsksFor (r : Request) (taken : List Text) (name : Text) : Prop :=
  r.wanted = name ∨ (r.wanted ∈ taken ∧ r.alternative = some name)

namespace Grant

theorem numbered_injective (separator base : Text) :
    Function.Injective (numbered separator base) := by
  intro m n h
  exact Text.ofNat_injective (List.append_cancel_left h)

/-- The first numbered name that is not among the taken ones. -/
def IsFirstFree (separator base : Text) (taken : List Text) (name : Text) : Prop :=
  ∃ n, 2 ≤ n ∧ name = numbered separator base n ∧ name ∉ taken ∧
    ∀ k, 2 ≤ k → k < n → numbered separator base k ∈ taken

section FirstFree

variable {separator base name other : Text} {taken taken' : List Text}

theorem IsFirstFree.of_mem_iff (h : IsFirstFree separator base taken name)
    (ht : ∀ name, name ∈ taken ↔ name ∈ taken') : IsFirstFree separator base taken' name := by
  obtain ⟨n, hn, he, hfree, hbefore⟩ := h
  refine ⟨n, hn, he, mt (ht name).mpr hfree, ?_⟩
  intro k hk hlt
  exact (ht _).mp (hbefore k hk hlt)

theorem IsFirstFree.unique (h : IsFirstFree separator base taken name)
    (h' : IsFirstFree separator base taken other) : name = other := by
  obtain ⟨m, hm, rfl, hfree, hbefore⟩ := h
  obtain ⟨n, hn, rfl, hfree', hbefore'⟩ := h'
  rcases Nat.lt_trichotomy m n with hlt | rfl | hlt
  · exact absurd (hbefore' m hm hlt) hfree
  · rfl
  · exact absurd (hbefore n hn hlt) hfree'

end FirstFree

theorem isFirstFree_firstFree (separator base : Text) (taken : List Text) :
    IsFirstFree separator base taken (firstFree separator base taken) := by
  let candidates := (List.range (taken.length + 1)).map fun i => numbered separator base (i + 2)
  have hn : candidates.Nodup := by
    apply List.Nodup.map _ List.nodup_range
    intro m n h
    have := numbered_injective separator base h
    omega
  have hfirst : firstFree separator base taken =
      (candidates.find? fun name => !taken.contains name).getD base := rfl
  cases hf : candidates.find? fun name => !taken.contains name with
  | none =>
    rw [List.find?_eq_none] at hf
    have hs : candidates ⊆ taken := by
      intro name hc
      simpa using hf name hc
    have hl : taken.length + 1 ≤ taken.length := by
      simpa [candidates] using hn.length_le_of_subset hs
    omega
  | some name =>
    rw [hf, Option.getD_some] at hfirst
    rw [List.find?_map] at hf
    obtain ⟨i, hi, rfl⟩ := Option.map_eq_some_iff.mp hf
    obtain ⟨hfree, -, hbefore⟩ := List.find?_range_eq_some.mp hi
    rw [hfirst]
    refine ⟨i + 2, by omega, rfl, by simpa using hfree, ?_⟩
    intro k hk hlt
    have hb := hbefore (k - 2) (by omega)
    have hk' : k - 2 + 2 = k := by omega
    simpa [hk'] using hb

theorem firstFree_not_mem (separator base : Text) (taken : List Text) :
    firstFree separator base taken ∉ taken := by
  obtain ⟨n, -, -, hfree, -⟩ := isFirstFree_firstFree separator base taken
  exact hfree

theorem answer_not_mem (separator : Text) (taken : List Text) (r : Request) :
    (answer separator taken r).name ∉ taken := by
  unfold answer
  split
  · cases hf : r.alternative.filter fun name => !taken.contains name with
    | none => exact firstFree_not_mem separator r.wanted taken
    | some name =>
      obtain ⟨_, hn⟩ := Option.filter_eq_some_iff.mp hf
      simpa using hn
  · rename_i hw
    simpa using hw

/-- A wanted name that is free is granted; otherwise the alternative is, or a numbered name. -/
theorem answer_cases (separator : Text) (taken : List Text) (r : Request) :
    (r.wanted ∉ taken ∧ (answer separator taken r).name = r.wanted) ∨
      (r.wanted ∈ taken ∧ (r.alternative = some (answer separator taken r).name ∨
        ∃ n, (answer separator taken r).name = numbered separator r.wanted n)) := by
  by_cases hw : r.wanted ∈ taken
  · refine .inr ⟨hw, ?_⟩
    rw [answer, if_pos (List.contains_iff_mem.mpr hw)]
    cases hf : r.alternative.filter fun name => !taken.contains name with
    | some name => exact .inl (Option.filter_eq_some_iff.mp hf).1
    | none =>
      obtain ⟨n, -, hn, -⟩ := isFirstFree_firstFree separator r.wanted taken
      exact .inr ⟨n, hn⟩
  · refine .inl ⟨hw, ?_⟩
    rw [answer, if_neg (mt List.contains_iff_mem.mp hw)]

/-- What holds of the wanted name, the alternative and the numbered names holds of the answer. -/
theorem answer_induction {P : Text → Prop} {separator : Text} (taken : List Text) {r : Request}
    (wanted : P r.wanted) (alternative : ∀ name, r.alternative = some name → P name)
    (number : ∀ n, P (numbered separator r.wanted n)) : P (answer separator taken r).name := by
  rcases answer_cases separator taken r with ⟨-, h⟩ | ⟨-, h | ⟨n, h⟩⟩
  · rw [h]
    exact wanted
  · exact alternative _ h
  · rw [h]
    exact number n

theorem answerAll_append (separator : Text) (taken : List Text) (front back : List Request) :
    answerAll separator taken (front ++ back) = answerAll separator taken front ++
      answerAll separator (((answerAll separator taken front).map Grant.name).reverse ++ taken)
        back := by
  induction front generalizing taken with
  | nil => rfl
  | cons r front ih =>
    rw [List.cons_append, answerAll, answerAll, ih]
    simp

theorem mem_answerAll {separator : Text} {taken : List Text} {requests : List Request}
    {grant : Grant} (h : grant ∈ answerAll separator taken requests) :
    ∃ r ∈ requests, ∃ before, grant = answer separator before r := by
  induction requests generalizing taken with
  | nil => cases h
  | cons first rest ih =>
    rcases List.mem_cons.mp h with h | h
    · exact ⟨first, List.mem_cons_self, taken, h⟩
    · obtain ⟨r, hr, before, he⟩ := ih h
      exact ⟨r, List.mem_cons_of_mem _ hr, before, he⟩

def granted (grants : List (Option Grant)) : List Text :=
  grants.filterMap fun grant => grant.map Grant.name

theorem granted_append (front back : List (Option Grant)) :
    granted (front ++ back) = granted front ++ granted back :=
  List.filterMap_append

theorem granted_answerEach (separator : Text) (taken : List Text)
    (requests : List (Option Request)) :
    (granted (answerEach separator taken requests)).Nodup ∧
      ∀ name ∈ granted (answerEach separator taken requests), name ∉ taken := by
  induction requests generalizing taken with
  | nil => simp [answerEach, granted]
  | cons request requests ih =>
    cases request with
    | none => exact ih taken
    | some r =>
      obtain ⟨hn, ht⟩ := ih ((answer separator taken r).name :: taken)
      simp only [List.mem_cons, not_or] at ht
      change ((answer separator taken r).name :: granted _).Nodup ∧
        ∀ name ∈ (answer separator taken r).name :: granted _, name ∉ taken
      refine ⟨List.nodup_cons.mpr ⟨fun hm => (ht _ hm).1 rfl, hn⟩, ?_⟩
      intro name hm
      rcases List.mem_cons.mp hm with rfl | hm
      · exact answer_not_mem separator taken r
      · exact (ht name hm).2

theorem mem_granted_answerEach {separator : Text} {taken : List Text}
    {requests : List (Option Request)} {name : Text}
    (h : name ∈ granted (answerEach separator taken requests)) :
    ∃ r, some r ∈ requests ∧ ∃ before, name = (answer separator before r).name := by
  induction requests generalizing taken with
  | nil => cases h
  | cons request requests ih =>
    cases request with
    | none =>
      obtain ⟨r, hr, before, he⟩ := ih h
      exact ⟨r, List.mem_cons_of_mem _ hr, before, he⟩
    | some first =>
      rcases List.mem_cons.mp h with h | h
      · exact ⟨first, List.mem_cons_self, taken, h⟩
      · obtain ⟨r, hr, before, he⟩ := ih h
        exact ⟨r, List.mem_cons_of_mem _ hr, before, he⟩

theorem isSome_answerEach (separator : Text) (taken : List Text)
    (requests : List (Option Request)) :
    (answerEach separator taken requests).map Option.isSome = requests.map Option.isSome := by
  induction requests generalizing taken with
  | nil => rfl
  | cons request requests ih =>
    cases request with
    | none => exact congrArg (false :: ·) (ih taken)
    | some r => exact congrArg (true :: ·) (ih _)

def isNumbered (name : Text) : Bool :=
  name.getLast?.any Char.isDigit

theorem isNumbered_numbered (separator base : Text) (n : Nat) :
    isNumbered (numbered separator base n) = true := by
  have hn : Text.ofNat n ≠ [] := Nat.toDigits_ne_nil
  have hd : ((Text.ofNat n).getLast hn).isDigit = true :=
    Nat.isDigit_of_mem_toDigits (by decide) (by decide) (List.getLast_mem hn)
  rw [isNumbered, numbered, List.getLast?_append_of_ne_nil _ hn, List.getLast?_eq_some_getLast hn,
    Option.any_some, hd]

variable {separator name : Text} {taken : List Text}

theorem name_answer_eq_iff (ht : name ∉ taken) (hn : isNumbered name = false) (r : Request) :
    (answer separator taken r).name = name ↔ r.AsksFor taken name := by
  constructor
  · rintro rfl
    rcases answer_cases separator taken r with ⟨-, h⟩ | ⟨hw, h | ⟨n, h⟩⟩
    · exact .inl h.symm
    · exact .inr ⟨hw, h⟩
    · rw [h, isNumbered_numbered] at hn
      cases hn
  · rintro (rfl | ⟨hw, ha⟩)
    · rw [answer, if_neg (mt List.contains_iff_mem.mp ht)]
    · rw [answer, if_pos (List.contains_iff_mem.mpr hw), ha, Option.filter_some_pos]
      · rfl
      · simpa using ht

/--
A name that is free at first and not numbered is granted exactly if some request comes down to it,
given the names that are gone when its turn comes.
-/
theorem mem_names_answerAll_iff {requests : List Request} (ht : name ∉ taken)
    (hn : isNumbered name = false) :
    name ∈ (answerAll separator taken requests).map Grant.name ↔
      ∃ front r back, requests = front ++ r :: back ∧
        r.AsksFor (taken ++ (answerAll separator taken front).map Grant.name) name := by
  induction requests generalizing taken with
  | nil => simp [answerAll]
  | cons first rest ih =>
    by_cases hf : (answer separator taken first).name = name
    · refine iff_of_true (List.mem_cons.mpr (.inl hf.symm)) ⟨[], first, rest, rfl, ?_⟩
      rw [answerAll, List.map_nil, List.append_nil]
      exact (name_answer_eq_iff ht hn first).mp hf
    · -- The first request takes another name, so the name stays free for the others.
      have ht' : name ∉ (answer separator taken first).name :: taken := by
        rw [List.mem_cons, not_or]
        exact ⟨Ne.symm hf, ht⟩
      have hm : name ∈ (answerAll separator taken (first :: rest)).map Grant.name ↔
          name ∈ (answerAll separator ((answer separator taken first).name :: taken) rest).map
            Grant.name := by
        rw [answerAll, List.map_cons, List.mem_cons, or_iff_right (Ne.symm hf)]
      rw [hm, ih ht']
      constructor
      · rintro ⟨front, r, back, rfl, ha⟩
        refine ⟨first :: front, r, back, rfl, ha.imp_right (And.imp_left fun hw => ?_)⟩
        simpa [answerAll, or_left_comm] using hw
      · rintro ⟨front, r, back, he, ha⟩
        cases front with
        | nil =>
          cases he
          rw [answerAll, List.map_nil, List.append_nil] at ha
          exact absurd ((name_answer_eq_iff ht hn first).mpr ha) hf
        | cons f front =>
          cases he
          refine ⟨front, r, back, rfl, ha.imp_right (And.imp_left fun hw => ?_)⟩
          simpa [answerAll, or_left_comm] using hw

theorem mem_granted_answerEach_iff {requests : List (Option Request)}
    (ha : ∀ r, some r ∈ requests → r.alternative = none) (ht : name ∉ taken)
    (hn : isNumbered name = false) :
    name ∈ granted (answerEach separator taken requests) ↔
      ∃ r, some r ∈ requests ∧ r.wanted = name := by
  induction requests generalizing taken with
  | nil => simp [answerEach, granted]
  | cons request requests ih =>
    have ha' (r : Request) (hr : some r ∈ requests) : r.alternative = none :=
      ha r (List.mem_cons_of_mem request hr)
    cases request with
    | none => simpa [answerEach, granted] using ih ha' ht
    | some first =>
      have hfirst : (answer separator taken first).name = name ↔ first.wanted = name := by
        rw [name_answer_eq_iff ht hn, Request.AsksFor, ha first List.mem_cons_self]
        simp
      by_cases hf : (answer separator taken first).name = name
      · exact iff_of_true (List.mem_cons.mpr (.inl hf.symm))
          ⟨first, List.mem_cons_self, hfirst.mp hf⟩
      · have ht' : name ∉ (answer separator taken first).name :: taken := by
          rw [List.mem_cons, not_or]
          exact ⟨Ne.symm hf, ht⟩
        have hm : name ∈ granted (answerEach separator taken (some first :: requests)) ↔
            name ∈ granted (answerEach separator ((answer separator taken first).name :: taken)
              requests) :=
          List.mem_cons.trans (or_iff_right (Ne.symm hf))
        rw [hm, ih ha' ht']
        constructor
        · rintro ⟨r, hr, hw⟩
          exact ⟨r, List.mem_cons_of_mem _ hr, hw⟩
        · rintro ⟨r, hr, hw⟩
          rcases List.mem_cons.mp hr with he | hr
          · cases he
            exact absurd (hfirst.mpr hw) hf
          · exact ⟨r, hr, hw⟩

end Grant

end Bindery

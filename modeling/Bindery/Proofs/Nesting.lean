import Bindery.Token.Basic

namespace Bindery

variable {α : Type} (is : α → Char → Bool) (opening closing : Char)

/-- How many more brackets a run opens than it closes. -/
def excess (run : List α) : Int :=
  (run.countP fun x => is x opening) - (run.countP fun x => is x closing)

/-- A run closes what it opens, and no front of it closes more than it opens. -/
structure Balanced (run : List α) : Prop where
  fronts : ∀ front back, run = front ++ back → 0 ≤ excess is opening closing front
  whole : excess is opening closing run = 0

def Unambiguous : Prop :=
  ∀ x c d, is x c = true → is x d = true → c = d

/-- The brackets open behind a run that `depth` brackets are open before; none if too many close. -/
def depthAfter? : Nat → List α → Option Nat
  | depth, [] => some depth
  | depth, x :: run =>
    if is x opening then depthAfter? (depth + 1) run
    else if is x closing then
      if depth = 0 then none else depthAfter? (depth - 1) run
    else depthAfter? depth run

variable {is opening closing}

@[simp] theorem excess_nil : excess is opening closing [] = 0 := rfl

theorem excess_append (run rest : List α) :
    excess is opening closing (run ++ rest) =
      excess is opening closing run + excess is opening closing rest := by
  simp only [excess, List.countP_append]
  omega

theorem excess_cons (x : α) (run : List α) :
    excess is opening closing (x :: run) =
      (if is x opening then 1 else 0) - (if is x closing then 1 else 0) +
        excess is opening closing run := by
  simp only [excess, List.countP_cons]
  split <;> split <;> omega

theorem depthAfter?_append (depth : Nat) (run rest : List α) :
    depthAfter? is opening closing depth (run ++ rest) =
      (depthAfter? is opening closing depth run).bind
        fun d => depthAfter? is opening closing d rest := by
  induction run generalizing depth with
  | nil => rfl
  | cons x run ih =>
    simp only [List.cons_append, depthAfter?]
    split
    · exact ih _
    · split
      · split
        · rfl
        · exact ih _
      · exact ih _

theorem depthAfter?_of_not_bracket {run : List α} (depth : Nat)
    (h : ∀ x ∈ run, is x opening = false ∧ is x closing = false) :
    depthAfter? is opening closing depth run = some depth := by
  induction run with
  | nil => rfl
  | cons x run ih =>
    obtain ⟨ho, hc⟩ := h x (by simp)
    simp only [depthAfter?, ho, hc]
    exact ih fun y hy => h y (by simp [hy])

theorem depthAfter?_filter {p : α → Bool}
    (h : ∀ x, p x = false → is x opening = false ∧ is x closing = false) (depth : Nat)
    (run : List α) :
    depthAfter? is opening closing depth (run.filter p) =
      depthAfter? is opening closing depth run := by
  induction run generalizing depth with
  | nil => rfl
  | cons x run ih =>
    cases hp : p x with
    | true => simp only [List.filter_cons_of_pos hp, depthAfter?, ih]
    | false =>
      obtain ⟨ho, hc⟩ := h x hp
      rw [List.filter_cons_of_neg (by simp [hp]), ih]
      simp [depthAfter?, ho, hc]

theorem depthAfter?_eq_excess (hu : Unambiguous is) (hb : opening ≠ closing) {depth d : Nat}
    {run : List α} (h : depthAfter? is opening closing depth run = some d) :
    (d : Int) = depth + excess is opening closing run := by
  induction run generalizing depth with
  | nil =>
    cases h
    simp
  | cons x run ih =>
    simp only [depthAfter?] at h
    rw [excess_cons]
    split at h
    · rename_i ho
      have hc : is x closing = false := by
        rw [Bool.eq_false_iff]
        exact fun hc => hb (hu x _ _ ho hc)
      have he := ih h
      rw [if_pos ho, if_neg (by simp [hc])]
      omega
    · rename_i ho
      split at h
      · rename_i hc
        split at h
        · cases h
        · have he := ih h
          rw [if_neg ho, if_pos hc]
          omega
      · rename_i hc
        have he := ih h
        rw [if_neg ho, if_neg hc]
        omega

/-- A run that closes too many brackets has a first bracket too many, behind a balanced rest. -/
theorem exists_overclosing {depth : Nat} {run : List α}
    (h : depthAfter? is opening closing depth run = none) :
    ∃ front x back, run = front ++ x :: back ∧ is x closing = true ∧
      is x opening = false ∧ depthAfter? is opening closing depth front = some 0 := by
  induction run generalizing depth with
  | nil => cases h
  | cons x run ih =>
    simp only [depthAfter?] at h
    split at h
    · rename_i ho
      obtain ⟨front, y, back, rfl, hc, hy, hd⟩ := ih h
      exact ⟨x :: front, y, back, rfl, hc, hy, by simpa [depthAfter?, ho] using hd⟩
    · rename_i ho
      split at h
      · rename_i hc
        split at h
        · rename_i hz
          exact ⟨[], x, run, rfl, hc, by simpa using ho, by rw [hz]; rfl⟩
        · rename_i hz
          obtain ⟨front, y, back, rfl, hc', hy, hd⟩ := ih h
          exact ⟨x :: front, y, back, rfl, hc', hy, by simpa [depthAfter?, ho, hc, hz] using hd⟩
      · rename_i hc
        obtain ⟨front, y, back, rfl, hc', hy, hd⟩ := ih h
        exact ⟨x :: front, y, back, rfl, hc', hy, by simpa [depthAfter?, ho, hc] using hd⟩

/-- The depth is counted to the end exactly if no front closes more than was open. -/
theorem depthAfter?_isSome_iff (hu : Unambiguous is) (hb : opening ≠ closing) {depth : Nat}
    {run : List α} :
    (∃ d, depthAfter? is opening closing depth run = some d) ↔
      ∀ front back, run = front ++ back → 0 ≤ depth + excess is opening closing front := by
  constructor
  · rintro ⟨d, h⟩ front back rfl
    rw [depthAfter?_append] at h
    obtain ⟨e, he, _⟩ := Option.bind_eq_some_iff.mp h
    have hx := depthAfter?_eq_excess hu hb he
    omega
  · intro h
    cases hd : depthAfter? is opening closing depth run with
    | some d => exact ⟨d, rfl⟩
    | none =>
      obtain ⟨front, x, back, rfl, hc, ho, hf⟩ := exists_overclosing hd
      have hz := depthAfter?_eq_excess hu hb hf
      have hn := h (front ++ [x]) back (by simp)
      rw [excess_append, excess_cons] at hn
      simp only [hc, ho, excess_nil, ite_true, Bool.false_eq_true, ite_false] at hn
      omega

theorem balanced_iff (hu : Unambiguous is) (hb : opening ≠ closing) {run : List α} :
    Balanced is opening closing run ↔ depthAfter? is opening closing 0 run = some 0 := by
  constructor
  · intro h
    have hf : ∀ front back, run = front ++ back →
        0 ≤ ((0 : Nat) : Int) + excess is opening closing front := by
      intro front back hr
      have hz := h.fronts front back hr
      omega
    obtain ⟨d, hd⟩ := (depthAfter?_isSome_iff hu hb).mpr hf
    have he := depthAfter?_eq_excess hu hb hd
    have hw := h.whole
    have hz : d = 0 := by omega
    rw [hd, hz]
  · intro h
    have he := depthAfter?_eq_excess hu hb h
    refine ⟨?_, by omega⟩
    intro front back hr
    have hf := (depthAfter?_isSome_iff hu hb).mp ⟨0, h⟩ front back hr
    omega

/-- What is open behind a front of a balanced run is what the front opens and does not close. -/
theorem Balanced.exists_depthAfter? (hu : Unambiguous is) (hb : opening ≠ closing)
    {front back : List α} (h : Balanced is opening closing (front ++ back)) :
    ∃ d : Nat, depthAfter? is opening closing 0 front = some d ∧
      (d : Int) = excess is opening closing front := by
  have hf : ∀ f b, front = f ++ b → 0 ≤ ((0 : Nat) : Int) + excess is opening closing f := by
    rintro f b rfl
    have hz := h.fronts f (b ++ back) (by rw [List.append_assoc])
    omega
  obtain ⟨d, hd⟩ := (depthAfter?_isSome_iff hu hb).mpr hf
  have he := depthAfter?_eq_excess hu hb hd
  exact ⟨d, hd, by omega⟩

/-- Behind each bracket that a balanced run opens stands the one that closes it, with a balanced run
between the two. -/
theorem Balanced.exists_closing (hu : Unambiguous is) (hb : opening ≠ closing)
    {front rest : List α} {x : α} (h : Balanced is opening closing (front ++ x :: rest))
    (hx : is x opening = true) :
    ∃ inner y after, rest = inner ++ y :: after ∧ is y closing = true ∧
      Balanced is opening closing inner := by
  -- Counted from zero, the rest closes one bracket too many, and the first such closes this one.
  have hn : depthAfter? is opening closing 0 rest = none := by
    cases hd : depthAfter? is opening closing 0 rest with
    | none => rfl
    | some d =>
      have hc : is x closing = false := by
        rw [Bool.eq_false_iff]
        exact fun hc => hb (hu x _ _ hx hc)
      have hr := depthAfter?_eq_excess hu hb hd
      have hf := h.fronts front (x :: rest) rfl
      have hw := h.whole
      rw [excess_append, excess_cons, if_pos hx, if_neg (by simp [hc])] at hw
      omega
  obtain ⟨inner, y, after, rfl, hc, -, hi⟩ := exists_overclosing hn
  exact ⟨inner, y, after, rfl, hc, (balanced_iff hu hb).mpr hi⟩

/-- A run that closes as much as it opens goes at least to the end of a balanced run that a closing
bracket stands behind. -/
theorem Balanced.length_le (hu : Unambiguous is) (hb : opening ≠ closing)
    {inner after front back : List α} {y z : α} (h : Balanced is opening closing inner)
    (he : inner ++ y :: after = front ++ z :: back) (hz : is z closing = true)
    (hf : excess is opening closing front = 0) :
    inner.length ≤ front.length := by
  apply Nat.not_lt.mp
  intro hl
  have hp : front ++ [z] <+: inner := by
    refine List.prefix_of_prefix_length_le ⟨back, ?_⟩ (List.prefix_append inner (y :: after)) ?_
    · rw [he, List.append_assoc, List.singleton_append]
    · rw [List.length_append, List.length_singleton]
      omega
  obtain ⟨more, hm⟩ := hp
  have hx := h.fronts (front ++ [z]) more hm.symm
  have ho : is z opening = false := by
    rw [Bool.eq_false_iff]
    exact fun ho => hb (hu z _ _ ho hz)
  rw [excess_append, excess_cons, if_neg (by simp [ho]), if_pos hz, excess_nil] at hx
  omega

theorem Token.isSymbol_unambiguous : Unambiguous Token.isSymbol := by
  intro t c d hc hd
  simp only [isSymbol, Bool.and_eq_true, beq_iff_eq] at hc hd
  exact Option.some.inj (hc.2.symm.trans hd.2)

end Bindery

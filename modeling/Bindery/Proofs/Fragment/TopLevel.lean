import Bindery.Fragment
import Bindery.Proofs.Nesting

namespace Bindery

variable {α : Type} (is : α → Char → Bool)

/-- The brackets of each kind match in a run. -/
structure BracketsMatch (run : List α) : Prop where
  parens : Balanced is '(' ')' run
  braces : Balanced is '\x7b' '\x7d' run
  brackets : Balanced is '[' ']' run

/-- A run closes as many brackets of each kind as it opens. -/
def AtTop (run : List α) : Prop :=
  excess is '(' ')' run = 0 ∧ excess is '\x7b' '\x7d' run = 0 ∧ excess is '[' ']' run = 0

instance (run : List α) : Decidable (AtTop is run) :=
  inferInstanceAs (Decidable (_ ∧ _ ∧ _))

/-- The runs between the commas at which no bracket is open, of items that stand behind `before`. -/
def topRuns : List α → List α → List (List α)
  | _, [] => [[]]
  | before, x :: run =>
    if is x ',' ∧ AtTop is before then [] :: topRuns (before ++ [x]) run
    else (topRuns (before ++ [x]) run).modifyHead (x :: ·)

def bracketChars : List Char :=
  ['(', ')', '\x7b', '\x7d', '[', ']']

namespace Nesting

def read? (d : Nesting) (x : α) : Option Nesting :=
  (bracketChars.find? (is x)).elim (some d) d.next?

def after? (d : Nesting) (run : List α) : Option Nesting :=
  run.foldlM (Nesting.read? is) d

end Nesting

/-- The texts of the runs between the top-level commas, if the brackets match. -/
def cutRun (text : α → Text) : Nesting → List α → Option (List Text)
  | d, [] => if d.isTop then some [[]] else none
  | d, x :: run =>
    if is x ',' ∧ d.isTop then (cutRun text d run).map ([] :: ·)
    else (d.read? is x).bind fun inner =>
      (cutRun text inner run).map (Fragment.attach (text x))

variable {is}

theorem topRuns_ne_nil (before run : List α) : topRuns is before run ≠ [] := by
  induction run generalizing before with
  | nil => simp [topRuns]
  | cons x run ih =>
    rw [topRuns]
    split
    · simp
    · obtain ⟨first, more, he⟩ := List.exists_cons_of_ne_nil (ih (before ++ [x]))
      simp [he]

namespace Nesting

theorem isTop_iff {d : Nesting} : d.isTop = true ↔ d = {} := by
  obtain ⟨p, b, k⟩ := d
  simp [isTop, and_assoc]

theorem next?_of_not_bracket {c : Char} (h : c ∉ bracketChars) (d : Nesting) :
    d.next? c = some d := by
  simp only [bracketChars, List.mem_cons, List.not_mem_nil, or_false, not_or] at h
  simp [next?, h]

theorem read?_of_not_bracket {x : α} (h : ∀ c ∈ bracketChars, is x c = false) (d : Nesting) :
    d.read? is x = some d := by
  have hf : bracketChars.find? (is x) = none := by
    rw [List.find?_eq_none]
    intro c hc
    simp [h c hc]
  rw [read?, hf]
  rfl

theorem read?_of_bracket (hu : Unambiguous is) {x : α} {c : Char} (hc : c ∈ bracketChars)
    (h : is x c = true) (d : Nesting) : d.read? is x = d.next? c := by
  cases hf : bracketChars.find? (is x) with
  | none => exact absurd h (List.find?_eq_none.mp hf c hc)
  | some b =>
    have hb : b = c := hu x b c (List.find?_some hf) h
    rw [read?, hf, hb]
    rfl

/-- An item counts in all three kinds of brackets at once. -/
theorem read?_eq_some_iff (hu : Unambiguous is) {d e : Nesting} {x : α} :
    d.read? is x = some e ↔ depthAfter? is '(' ')' d.parens [x] = some e.parens ∧
      depthAfter? is '\x7b' '\x7d' d.braces [x] = some e.braces ∧
      depthAfter? is '[' ']' d.brackets [x] = some e.brackets := by
  obtain ⟨p, b, k⟩ := e
  by_cases hx : ∃ c ∈ bracketChars, is x c = true
  · obtain ⟨c, hc, hi⟩ := hx
    have hn : ∀ o, o ≠ c → is x o = false := by
      intro o ho
      rw [Bool.eq_false_iff]
      exact fun h => ho (hu x o c h hi)
    rw [read?_of_bracket hu hc hi]
    simp only [bracketChars, List.mem_cons, List.not_mem_nil, or_false] at hc
    rcases hc with rfl | rfl | rfl | rfl | rfl | rfl <;>
      simp [depthAfter?, next?, hi, hn, and_assoc, and_left_comm]
  · have hn : ∀ c ∈ bracketChars, is x c = false := by
      intro c hc
      rw [Bool.eq_false_iff]
      exact fun h => hx ⟨c, hc, h⟩
    rw [read?_of_not_bracket hn]
    simp only [bracketChars, List.mem_cons, List.not_mem_nil, or_false, forall_eq_or_imp,
      forall_eq] at hn
    obtain ⟨h1, h2, h3, h4, h5, h6⟩ := hn
    obtain ⟨p', b', k'⟩ := d
    simp [depthAfter?, *]

theorem after?_cons (d : Nesting) (x : α) (run : List α) :
    d.after? is (x :: run) = (d.read? is x).bind fun e => e.after? is run := by
  rw [after?, List.foldlM_cons]
  rfl

theorem after?_append (d : Nesting) (run rest : List α) :
    d.after? is (run ++ rest) = (d.after? is run).bind fun e => e.after? is rest := by
  rw [after?, List.foldlM_append]
  rfl

theorem after?_concat {d e f : Nesting} {run : List α} {x : α} (hr : d.after? is run = some e)
    (hx : e.read? is x = some f) : d.after? is (run ++ [x]) = some f := by
  rw [after?_append, hr, Option.bind_some, after?_cons, hx]
  rfl

theorem after?_eq_some_iff (hu : Unambiguous is) {d e : Nesting} {run : List α} :
    d.after? is run = some e ↔ depthAfter? is '(' ')' d.parens run = some e.parens ∧
      depthAfter? is '\x7b' '\x7d' d.braces run = some e.braces ∧
      depthAfter? is '[' ']' d.brackets run = some e.brackets := by
  induction run generalizing d with
  | nil =>
    obtain ⟨p, b, k⟩ := d
    obtain ⟨p', b', k'⟩ := e
    simp [after?, depthAfter?]
  | cons x run ih =>
    rw [after?_cons, Option.bind_eq_some_iff, ← List.singleton_append]
    simp only [depthAfter?_append, Option.bind_eq_some_iff]
    constructor
    · rintro ⟨f, hx, hr⟩
      obtain ⟨hp, hb, hk⟩ := (read?_eq_some_iff hu).mp hx
      obtain ⟨hp', hb', hk'⟩ := ih.mp hr
      exact ⟨⟨_, hp, hp'⟩, ⟨_, hb, hb'⟩, ⟨_, hk, hk'⟩⟩
    · rintro ⟨⟨p, hp, hp'⟩, ⟨b, hb, hb'⟩, ⟨k, hk, hk'⟩⟩
      exact ⟨⟨p, b, k⟩, (read?_eq_some_iff hu).mpr ⟨hp, hb, hk⟩, ih.mpr ⟨hp', hb', hk'⟩⟩

theorem bracketsMatch_iff (hu : Unambiguous is) {run : List α} :
    BracketsMatch is run ↔ ({} : Nesting).after? is run = some {} := by
  rw [after?_eq_some_iff hu]
  constructor
  · intro h
    exact ⟨(balanced_iff hu (by decide)).mp h.parens, (balanced_iff hu (by decide)).mp h.braces,
      (balanced_iff hu (by decide)).mp h.brackets⟩
  · rintro ⟨hp, hb, hk⟩
    exact ⟨(balanced_iff hu (by decide)).mpr hp, (balanced_iff hu (by decide)).mpr hb,
      (balanced_iff hu (by decide)).mpr hk⟩

theorem isTop_iff_atTop (hu : Unambiguous is) {d : Nesting} {run : List α}
    (h : ({} : Nesting).after? is run = some d) : d.isTop = true ↔ AtTop is run := by
  obtain ⟨hp, hb, hk⟩ := (after?_eq_some_iff hu).mp h
  have ep : (d.parens : Int) = (0 : Nat) + _ := depthAfter?_eq_excess hu (by decide) hp
  have eb : (d.braces : Int) = (0 : Nat) + _ := depthAfter?_eq_excess hu (by decide) hb
  have ek : (d.brackets : Int) = (0 : Nat) + _ := depthAfter?_eq_excess hu (by decide) hk
  simp only [isTop, AtTop, Bool.and_eq_true, beq_iff_eq]
  omega

end Nesting

theorem not_bracket_of_comma (hu : Unambiguous is) {x : α} (h : is x ',' = true) :
    ∀ c ∈ bracketChars, is x c = false := by
  intro c hc
  rw [Bool.eq_false_iff]
  intro hb
  have he : c = ',' := hu x c ',' hb h
  subst he
  revert hc
  decide

theorem attach_flatMap (text : α → Text) (x : α) {runs : List (List α)} (h : runs ≠ []) :
    Fragment.attach (text x) (runs.map (List.flatMap text)) =
      (runs.modifyHead (x :: ·)).map (List.flatMap text) := by
  obtain ⟨first, more, rfl⟩ := List.exists_cons_of_ne_nil h
  rfl

theorem cutRun_eq_some_iff (hu : Unambiguous is) (text : α → Text) {before run : List α}
    {d : Nesting} {pieces : List Text} (hd : ({} : Nesting).after? is before = some d) :
    cutRun is text d run = some pieces ↔ d.after? is run = some {} ∧
      pieces = (topRuns is before run).map (List.flatMap text) := by
  induction run generalizing before d pieces with
  | nil =>
    by_cases ht : d.isTop = true
    · rw [cutRun, if_pos ht, Nesting.isTop_iff.mp ht]
      constructor
      · intro h
        exact ⟨rfl, (Option.some.inj h).symm⟩
      · rintro ⟨_, rfl⟩
        rfl
    · have he : d ≠ {} := fun he => ht (Nesting.isTop_iff.mpr he)
      simp [cutRun, Nesting.after?, ht, he]
  | cons x run ih =>
    have hc : (is x ',' = true ∧ d.isTop = true) ↔ is x ',' = true ∧ AtTop is before := by
      rw [Nesting.isTop_iff_atTop hu hd]
    rw [cutRun, topRuns, Nesting.after?_cons]
    by_cases ht : is x ',' = true ∧ d.isTop = true
    · have hx := Nesting.read?_of_not_bracket (not_bracket_of_comma hu ht.1) d
      rw [if_pos ht, if_pos (hc.mp ht), hx, Option.map_eq_some_iff]
      simp only [ih (Nesting.after?_concat hd hx)]
      constructor
      · rintro ⟨rest, ⟨hr, rfl⟩, rfl⟩
        exact ⟨hr, rfl⟩
      · rintro ⟨hr, rfl⟩
        exact ⟨_, ⟨hr, rfl⟩, rfl⟩
    · rw [if_neg ht, if_neg fun h => ht (hc.mpr h)]
      cases hx : d.read? is x with
      | none => simp
      | some inner =>
        simp only [Option.bind_some, Option.map_eq_some_iff, ih (Nesting.after?_concat hd hx)]
        rw [← attach_flatMap text x (topRuns_ne_nil _ run)]
        constructor
        · rintro ⟨rest, ⟨hr, rfl⟩, rfl⟩
          exact ⟨hr, rfl⟩
        · rintro ⟨hr, rfl⟩
          exact ⟨_, ⟨hr, rfl⟩, rfl⟩

/-- Counting brackets gives the texts between the top-level commas exactly if the brackets match. -/
theorem cutRun_top_iff (hu : Unambiguous is) (text : α → Text) {run : List α}
    {pieces : List Text} :
    cutRun is text {} run = some pieces ↔ BracketsMatch is run ∧
      pieces = (topRuns is [] run).map (List.flatMap text) := by
  rw [Nesting.bracketsMatch_iff hu]
  exact cutRun_eq_some_iff hu text rfl

theorem cutRun_cons_congr {β : Type} {is' : β → Char → Bool} {text : α → Text} {text' : β → Text}
    {x : α} {y : β} {run : List α} {run' : List β} (hi : is x = is' y) (ht : text x = text' y)
    (hr : ∀ d, cutRun is text d run = cutRun is' text' d run') (d : Nesting) :
    cutRun is text d (x :: run) = cutRun is' text' d (y :: run') := by
  simp only [cutRun, Nesting.read?, hi, ht, hr]

theorem cutRun_passive {x : α} (hb : ∀ c ∈ bracketChars, is x c = false)
    (hc : is x ',' = false) (text : α → Text) (d : Nesting) (run : List α) :
    cutRun is text d (x :: run) = (cutRun is text d run).map (Fragment.attach (text x)) := by
  simp [cutRun, hc, Nesting.read?_of_not_bracket hb]

end Bindery

import Bindery.Module.Literal
import Mathlib.Data.List.Basic

namespace Bindery.Query

/-- A part of a query that comes with values: a character, or the place of a value. -/
inductive Part where
  | char (c : Char)
  | place
  deriving DecidableEq, Repr

/-- The parts of a query; a percent sign that begins neither mark is refused. -/
def read? : Text → Option (List Part)
  | [] => some []
  | '%' :: d :: rest =>
    if d = '%' then (read? rest).map (.char '%' :: ·)
    else if d = 's' then (read? rest).map (.place :: ·)
    else none
  | c :: rest => if c = '%' then none else (read? rest).map (.char c :: ·)

/-- Puts the values at the places, in order; there must be as many of them as places. -/
def fill : List Part → List Text → Option Text
  | [], [] => some []
  | .char c :: parts, values => (fill parts values).map (c :: ·)
  | .place :: parts, value :: values => (fill parts values).map (value ++ ·)
  | _, _ => none

/-- The statement that the driver sends for a query, with values or without. -/
def sent? (query : Text) : Option (List Text) → Option Text
  | none => some query
  | some values => (read? query).bind fun parts => fill parts values

theorem read?_char {c : Char} (h : c ≠ '%') (rest : Text) :
    read? (c :: rest) = (read? rest).map (.char c :: ·) := by
  rw [read?]
  · rw [if_neg h]
  · exact fun _ _ hc => absurd hc h

theorem fill_append {front back : List Part} {values more : List Text} {out : Text}
    (h : fill front values = some out) :
    fill (front ++ back) (values ++ more) = (fill back more).map (out ++ ·) := by
  induction front generalizing values out with
  | nil =>
    cases values with
    | nil =>
      cases h
      simp
    | cons value values => cases h
  | cons part front ih =>
    cases part with
    | char c =>
      rw [fill] at h
      obtain ⟨rest, hr, rfl⟩ := Option.map_eq_some_iff.mp h
      rw [List.cons_append, fill, ih hr, Option.map_map]
      rfl
    | place =>
      cases values with
      | nil => cases h
      | cons value values =>
        rw [fill] at h
        obtain ⟨rest, hr, rfl⟩ := Option.map_eq_some_iff.mp h
        rw [List.cons_append, List.cons_append, fill, ih hr, Option.map_map]
        congr 1
        funext text
        exact (List.append_assoc ..).symm

theorem isSome_fill_iff {parts : List Part} {values : List Text} :
    (fill parts values).isSome = true ↔ values.length = parts.count .place := by
  induction parts generalizing values with
  | nil => cases values <;> simp [fill]
  | cons part parts ih =>
    cases part with
    | char c => simp [fill, ih]
    | place => cases values <;> simp [fill, ih]

/-- Whatever follows, the text is read as parts that the values fill, which gives `out`. -/
def Sends (text : Text) (values : List Text) (out : Text) : Prop :=
  ∃ parts, (∀ rest, read? (text ++ rest) = (read? rest).map (parts ++ ·)) ∧
    fill parts values = some out

theorem sends_nil : Sends [] [] [] :=
  ⟨[], fun rest => by simp, rfl⟩

theorem sends_place (value : Text) : Sends "%s".toList [value] value := by
  have hs : "%s".toList = ['%', 's'] := by decide
  rw [hs]
  exact ⟨[.place], fun rest => rfl, by simp [fill]⟩

theorem Sends.append {a b x y : Text} {vs ws : List Text} (ha : Sends a vs x)
    (hb : Sends b ws y) : Sends (a ++ b) (vs ++ ws) (x ++ y) := by
  obtain ⟨parts, hr, hf⟩ := ha
  obtain ⟨more, hs, hg⟩ := hb
  refine ⟨parts ++ more, fun rest => ?_, ?_⟩
  · rw [List.append_assoc, hr, hs, Option.map_map]
    congr 1
    funext parts
    exact (List.append_assoc ..).symm
  · rw [fill_append hf, hg]
    rfl

theorem escapePercent_cons (c : Char) (t : Text) :
    Module.escapePercent (c :: t) =
      (if c = '%' then ['%', '%'] else [c]) ++ Module.escapePercent t := by
  have hp : "%%".toList = ['%', '%'] := by decide
  rw [Module.escapePercent, Text.replaceChar, List.flatMap_cons, hp]
  rfl

theorem sends_escaped (t : Text) : Sends (Module.escapePercent t) [] t := by
  induction t with
  | nil => exact sends_nil
  | cons c t ih =>
    rw [escapePercent_cons]
    have hc : Sends (if c = '%' then ['%', '%'] else [c]) [] [c] := by
      refine ⟨[.char c], fun rest => ?_, rfl⟩
      split
      · rename_i hc
        rw [hc]
        rfl
      · rename_i hc
        exact read?_char hc rest
    exact hc.append ih

theorem escapePercent_eq_self {t : Text} (h : '%' ∉ t) : Module.escapePercent t = t := by
  induction t with
  | nil => rfl
  | cons c t ih =>
    rw [List.mem_cons, not_or] at h
    rw [escapePercent_cons, ih h.2, if_neg (Ne.symm h.1)]
    rfl

theorem sends_text {t : Text} (h : '%' ∉ t) : Sends t [] t := by
  have ht := sends_escaped t
  rwa [escapePercent_eq_self h] at ht

theorem sends_join {α : Type} {separator : Text} (hs : '%' ∉ separator) {f : α → Text}
    {g : α → Text → Text} {xs : List α} (h : ∀ x ∈ xs, ∀ value, Sends (f x) [value] (g x value))
    {values : List Text} (hl : values.length = xs.length) :
    Sends (Text.join separator (xs.map f)) values
      (Text.join separator (List.zipWith g xs values)) := by
  induction xs generalizing values with
  | nil =>
    rw [List.length_nil, List.length_eq_zero_iff] at hl
    rw [hl]
    exact sends_nil
  | cons x xs ih =>
    obtain ⟨hx, hxs⟩ := List.forall_mem_cons.mp h
    obtain ⟨value, values, rfl⟩ := List.exists_cons_of_length_eq_add_one hl
    rw [List.length_cons, List.length_cons, Nat.add_right_cancel_iff] at hl
    have hrest := ih hxs hl
    cases xs with
    | nil =>
      rw [List.length_nil, List.length_eq_zero_iff] at hl
      rw [hl]
      simpa [Text.join, List.intercalate_singleton] using hx value
    | cons y ys =>
      obtain ⟨second, values, rfl⟩ := List.exists_cons_of_length_eq_add_one hl
      have hj := (hx value).append ((sends_text hs).append hrest)
      simpa only [Text.join, List.map_cons, List.zipWith_cons_cons, List.intercalate_cons_cons,
        List.singleton_append, List.nil_append, List.append_assoc] using hj

/-- A query has as many places as it takes values, and no other marks. -/
theorem Sends.exists_parts {query out : Text} {values : List Text} (h : Sends query values out) :
    ∃ parts, read? query = some parts ∧ parts.count .place = values.length ∧
      fill parts values = some out := by
  obtain ⟨parts, hr, hf⟩ := h
  have hq := hr []
  rw [List.append_nil, read?, Option.map_some, List.append_nil] at hq
  exact ⟨parts, hq, (isSome_fill_iff.mp (Option.isSome_of_eq_some hf)).symm, hf⟩

theorem sent?_eq_ite {query : Text} {n : Nat} {out : List Text → Text}
    (h : ∀ values, values.length = n → Sends query values (out values)) (values : List Text) :
    sent? query (some values) = if values.length = n then some (out values) else none := by
  split
  · rename_i hl
    obtain ⟨parts, hr, -, hf⟩ := (h values hl).exists_parts
    rw [sent?, hr, Option.bind_some, hf]
  · rename_i hl
    obtain ⟨parts, hr, hcount, -⟩ := (h (List.replicate n []) List.length_replicate).exists_parts
    rw [List.length_replicate] at hcount
    rw [sent?, hr, Option.bind_some, ← Option.not_isSome_iff_eq_none, isSome_fill_iff, hcount]
    exact hl

variable {mark : Char}

/-- Behind a percent sign the escaped text is ahead by a run of percent signs, and stays so. -/
theorem not_prefix_ahead (hm : mark ≠ '%') (t : Text) (n : Nat) (tail : Text) :
    ¬ t ++ [mark] <+: List.replicate (n + 1) '%' ++ (Module.escapePercent t ++ tail) := by
  induction t generalizing n with
  | nil =>
    rw [List.replicate_succ, List.nil_append, List.cons_append, List.cons_prefix_cons]
    exact fun h => hm h.1
  | cons c t ih =>
    rw [List.replicate_succ, List.cons_append, List.cons_append, List.cons_prefix_cons]
    rintro ⟨rfl, h⟩
    have hr : List.replicate n '%' ++ ['%', '%'] = List.replicate (n + 1 + 1) '%' :=
      List.replicate_append_replicate (n := n) (m := 2)
    rw [escapePercent_cons, if_pos rfl, List.append_assoc, ← List.append_assoc, hr] at h
    exact ih (n + 1) h

theorem percent_not_mem_of_prefix (hm : mark ≠ '%') {t tail : Text}
    (h : t ++ [mark] <+: Module.escapePercent t ++ tail) : '%' ∉ t := by
  induction t with
  | nil => exact List.not_mem_nil
  | cons c t ih =>
    rw [escapePercent_cons] at h
    split at h
    · rename_i hc
      rw [hc, List.cons_append, List.cons_append, List.cons_append, List.cons_prefix_cons] at h
      exact absurd h.2 (not_prefix_ahead hm t 0 tail)
    · rename_i hc
      rw [List.singleton_append, List.cons_append, List.cons_append, List.cons_prefix_cons] at h
      rw [List.mem_cons, not_or]
      exact ⟨Ne.symm hc, ih h.2⟩

end Bindery.Query

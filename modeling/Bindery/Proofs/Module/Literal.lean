import Bindery.Module.Literal
import Mathlib.Data.List.Basic

namespace Bindery.Module

/-- The characters that a backslash and one more character denote. -/
def escapes : List (Char × Char) :=
  [('\\', '\\'), ('\'', '\''), ('"', '"'), ('a', '\x07'), ('b', '\x08'), ('f', '\x0c'),
    ('n', '\n'), ('r', '\r'), ('t', '\t'), ('v', '\x0b')]

/-- The characters that cannot stand for themselves: the ends of lines, and the null character. -/
def refusedChars : List Char :=
  ['\n', '\r', '\x00']

def hexDigit? (c : Char) : Option Nat :=
  let n := "0123456789abcdef".toList.idxOf c.toLower
  if n < 16 then some n else none

/--
Reads a literal behind its opening quote, up to a closing quote with nothing behind it. Of the
escapes it reads those of one character and those with two hexadecimal digits; it refuses all
others.
-/
def readBody? : Text → Option Text
  | [] => none
  | '\\' :: 'x' :: high :: low :: rest => do
    let n := (← hexDigit? high) * 16 + (← hexDigit? low)
    let value ← readBody? rest
    return Char.ofNat n :: value
  | '\\' :: c :: rest => do
    let d ← escapes.lookup c
    let value ← readBody? rest
    return d :: value
  | c :: rest =>
    if c = '\'' then if rest.isEmpty then some [] else none
    else if c = '\\' || refusedChars.contains c then none
    else (readBody? rest).map (c :: ·)

/-- The text that a single-quoted literal denotes. -/
def readLiteral? : Text → Option Text
  | '\'' :: rest => readBody? rest
  | _ => none

theorem escapeChar_cases (c : Char) :
    (∃ e, escapeChar c = ['\\', e] ∧ escapes.lookup e = some c ∧ c ≠ '\x00') ∨
      escapeChar c = [c] ∧ c ≠ '\'' ∧ c ≠ '\\' ∧ c ≠ '\n' ∧ c ≠ '\r' := by
  unfold escapeChar
  split_ifs with hb hq hn hr ht
  · exact .inl ⟨'\\', rfl, (by rw [hb]; rfl), by simp [hb]⟩
  · exact .inl ⟨'\'', rfl, (by rw [hq]; rfl), by simp [hq]⟩
  · exact .inl ⟨'n', rfl, (by rw [hn]; rfl), by simp [hn]⟩
  · exact .inl ⟨'r', rfl, (by rw [hr]; rfl), by simp [hr]⟩
  · exact .inl ⟨'t', rfl, (by rw [ht]; rfl), by simp [ht]⟩
  · exact .inr ⟨rfl, hq, hb, hn, hr⟩

theorem readBody?_escape {e c : Char} (h : escapes.lookup e = some c) (rest : Text) :
    readBody? ('\\' :: e :: rest) = (readBody? rest).map (c :: ·) := by
  have hx : e ≠ 'x' := by
    rintro rfl
    have hn : escapes.lookup 'x' = none := by decide
    rw [hn] at h
    cases h
  rw [readBody?.eq_3 e rest fun _ _ _ he => absurd he hx, h]
  cases readBody? rest <;> rfl

theorem readBody?_plain {c : Char} (hq : c ≠ '\'') (hb : c ≠ '\\') (rest : Text) :
    readBody? (c :: rest) =
      if refusedChars.contains c then none else (readBody? rest).map (c :: ·) := by
  rw [readBody?]
  · simp [hq, hb]
  · exact fun _ _ _ hc => absurd hc hb
  · exact fun _ _ hc => absurd hc hb

theorem readBody?_escapeChar (c : Char) (rest : Text) :
    readBody? (escapeChar c ++ rest) =
      if c = '\x00' then none else (readBody? rest).map (c :: ·) := by
  rcases escapeChar_cases c with ⟨e, he, hl, hz⟩ | ⟨he, hq, hb, hn, hr⟩
  · rw [he, if_neg hz]
    exact readBody?_escape hl rest
  · rw [he, List.singleton_append, readBody?_plain hq hb]
    simp [refusedChars, hn, hr]

theorem readBody?_written (t : Text) :
    readBody? (t.flatMap escapeChar ++ ['\'']) = if '\x00' ∈ t then none else some t := by
  induction t with
  | nil => rfl
  | cons c t ih =>
    rw [List.flatMap_cons, List.append_assoc, readBody?_escapeChar, ih]
    by_cases hc : c = '\x00'
    · simp [hc]
    · by_cases ht : '\x00' ∈ t <;> simp [hc, ht, Ne.symm hc]

/-- What is written for a text is read as this text, unless it holds a null character. -/
theorem readLiteral?_quote (t : Text) :
    readLiteral? (quote t) = if '\x00' ∈ t then none else some t :=
  readBody?_written t

theorem readLiteral?_quote_iff (t : Text) : readLiteral? (quote t) = some t ↔ '\x00' ∉ t := by
  rw [readLiteral?_quote]
  split
  · rename_i h
    simp [h]
  · rename_i h
    simp [h]

theorem escapeChar_ne_nil (c : Char) : escapeChar c ≠ [] := by
  rcases escapeChar_cases c with ⟨e, he, -, -⟩ | ⟨he, -⟩ <;> simp [he]

theorem flatMap_escapeChar_injective {s t : Text}
    (h : s.flatMap escapeChar = t.flatMap escapeChar) : s = t := by
  induction s generalizing t with
  | nil =>
    cases t with
    | nil => rfl
    | cons d t => exact absurd (List.append_eq_nil_iff.mp h.symm).1 (escapeChar_ne_nil d)
  | cons c s ih =>
    cases t with
    | nil => exact absurd (List.append_eq_nil_iff.mp h).1 (escapeChar_ne_nil c)
    | cons d t =>
      rw [List.flatMap_cons, List.flatMap_cons] at h
      rcases escapeChar_cases c with ⟨e, hc, hl, -⟩ | ⟨hc, -, hb, -⟩ <;>
        rcases escapeChar_cases d with ⟨f, hd, hm, -⟩ | ⟨hd, -, hb', -⟩ <;>
        rw [hc, hd] at h
      · obtain ⟨hf, hrest⟩ := List.cons.inj (List.cons.inj h).2
        rw [← hf] at hm
        rw [Option.some.inj (hl.symm.trans hm), ih hrest]
      · exact absurd (List.cons.inj h).1.symm hb'
      · exact absurd (List.cons.inj h).1 hb
      · obtain ⟨hcd, hrest⟩ := List.cons.inj h
        rw [hcd, ih hrest]

theorem quote_injective : Function.Injective quote := by
  intro s t h
  exact flatMap_escapeChar_injective (List.append_cancel_left (List.append_cancel_right h))

theorem no_break_mem_quote (t : Text) : ∀ c ∈ quote t, c ≠ '\n' ∧ c ≠ '\r' := by
  have hq {c : Char} (hc : c ∈ "'".toList) : c ≠ '\n' ∧ c ≠ '\r' := by
    rw [show c = '\'' from List.mem_singleton.mp hc]
    decide
  have hl : escapes.lookup '\n' = none ∧ escapes.lookup '\r' = none := by decide
  intro c hc
  simp only [quote, List.mem_append, List.mem_flatMap] at hc
  rcases hc with (hc | ⟨d, -, hc⟩) | hc
  · exact hq hc
  · rcases escapeChar_cases d with ⟨e, he, hd, -⟩ | ⟨he, -, -, hn, hr⟩
    · rw [he] at hc
      simp only [List.mem_cons, List.not_mem_nil, or_false] at hc
      rcases hc with rfl | rfl
      · decide
      · constructor
        · rintro rfl
          rw [hl.1] at hd
          cases hd
        · rintro rfl
          rw [hl.2] at hd
          cases hd
    · rw [he, List.mem_singleton] at hc
      rw [hc]
      exact ⟨hn, hr⟩
  · exact hq hc

theorem newline_not_mem_quote (t : Text) : '\n' ∉ quote t :=
  fun h => (no_break_mem_quote t _ h).1 rfl

end Bindery.Module

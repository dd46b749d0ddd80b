import Bindery.Proofs.Name.Plain
import Bindery.Proofs.Text.Letters
import Bindery.Proofs.Text.Lines

namespace Bindery

namespace Text

theorem isLower_shoutySnake {name : Text} {c : Char} (h : c ∈ shoutySnake name) :
    c.isLower = false := by
  rcases mem_join h with h | ⟨l, hl, h⟩
  · rw [List.mem_singleton.mp h]
    rfl
  · obtain ⟨word, -, rfl⟩ := List.mem_map.mp hl
    obtain ⟨d, -, hd⟩ := List.mem_flatMap.mp h
    exact isLower_upperChar hd

end Text

namespace Name

/--
A name that the generated language takes for an identifier: letters, digits and underscores, not
empty, no digit at the front, and no reserved word.
-/
structure IsLegal (name : Text) : Prop extends IsProper name where
  start : startsWithDigit name = false
  unreserved : isKeyword name = false

theorem IsPlain.no_point {name : Text} (h : IsPlain name) : '.' ∉ name := by
  intro hp
  exact absurd (h '.' hp) (by decide)

/-- A name that does not end in a small letter is no reserved word. -/
theorem isKeyword_eq_false {name : Text} {c : Char} (h : name.getLast? = some c)
    (hc : c.isLower = false) : isKeyword name = false := by
  have hall : ∀ k ∈ keywords, k.getLast?.any Char.isLower = true := by decide
  rw [isKeyword, Bool.eq_false_iff]
  intro hk
  have hl := hall name (List.contains_iff_mem.mp hk)
  rw [h, Option.any_some, hc] at hl
  cases hl

/-- More characters make no reserved word of a name, if the last of them is no small letter. -/
theorem IsProper.isLegal_append {front back : Text} (hf : IsProper front)
    (hd : startsWithDigit front = false) (hb : IsPlain back) {c : Char}
    (hl : back.getLast? = some c) (hc : c.isLower = false) : IsLegal (front ++ back) where
  toIsProper := hf.append hb
  start := by rw [startsWithDigit_append hf.nonempty, hd]
  unreserved := by
    apply isKeyword_eq_false (c := c) _ hc
    rw [List.getLast?_append, hl]
    rfl

theorem isLegal_of_started {name : Text} (h : IsProper name) (hd : startsWithDigit name = false) :
    IsLegal (if isKeyword name then name ++ "_" else name) := by
  split
  · exact h.isLegal_append hd (isPlain_of_all (by decide)) rfl rfl
  · rename_i hk
    exact ⟨h, hd, by simpa using hk⟩

theorem isLegal_identifier (name : Text) {fallback : Text} (h : IsLegal fallback) :
    IsLegal (identifier name fallback) := by
  have hu : IsPlain ['_'] := isPlain_of_all (by decide)
  simp only [identifier]
  split
  · exact h
  · rename_i he
    have hc : IsProper (sanitize name) := isProper_sanitize (by simpa using he)
    apply isLegal_of_started
    · split
      · exact (h.append hu).append hc.plain
      · exact hc
    · split
      · rw [List.append_assoc, startsWithDigit_append h.nonempty, h.start]
      · rename_i hd
        simpa using hd

theorem isLegal_iff {name : Text} : IsLegal name ↔
    name.all isIdentifierChar = true ∧ name ≠ [] ∧ startsWithDigit name = false ∧
      isKeyword name = false :=
  ⟨fun h => ⟨List.all_eq_true.mpr h.plain, h.nonempty, h.start, h.unreserved⟩,
    fun ⟨hp, hn, hd, hk⟩ => ⟨⟨isPlain_of_all hp, hn⟩, hd, hk⟩⟩

instance (name : Text) : Decidable (IsLegal name) :=
  decidable_of_iff _ isLegal_iff.symm

theorem isLegal_function (sqlName : Text) : IsLegal (function sqlName) :=
  isLegal_identifier _ (by decide)

theorem isLegal_parameter (sqlName : Text) : IsLegal (parameter sqlName) :=
  isLegal_identifier _ (by decide)

theorem isLegal_field (column : Text) : IsLegal (field column) :=
  isLegal_identifier _ (by decide)

theorem isLower_sanitize {name : Text} (h : ∀ c ∈ name, c.isLower = false) :
    ∀ c ∈ sanitize name, c.isLower = false := by
  intro c hc
  obtain ⟨d, hd, rfl⟩ := List.mem_map.mp hc
  split
  · exact h d hd
  · rfl

theorem isLegal_member (label : Text) : IsLegal (member label) := by
  have hlow := isLower_sanitize fun c (hc : c ∈ Text.shoutySnake label) =>
    Text.isLower_shoutySnake hc
  simp only [member]
  split
  · decide
  · rename_i he
    have hs : IsProper (sanitize (Text.shoutySnake label)) := isProper_sanitize (by simpa using he)
    have hl := List.getLast?_eq_some_getLast hs.nonempty
    have hc := hlow _ (List.getLast_mem hs.nonempty)
    split
    · have hv : IsLegal "VALUE_".toList := by decide
      exact hv.isLegal_append hv.start hs.plain hl hc
    · rename_i hd
      exact ⟨hs, by simpa using hd, isKeyword_eq_false hl hc⟩

theorem IsProper.append_ofNat {front : Text} (h : IsProper front)
    (hd : startsWithDigit front = false) (n : Nat) : IsLegal (front ++ Text.ofNat n) := by
  have hn : Text.ofNat n ≠ [] := Nat.toDigits_ne_nil
  apply h.isLegal_append hd (isPlain_ofNat n) (List.getLast?_eq_some_getLast hn)
  have hdigit := Nat.isDigit_of_mem_toDigits (by decide) (by decide) (List.getLast_mem hn)
  have hb : 48 ≤ ((Text.ofNat n).getLast hn).toNat ∧ ((Text.ofNat n).getLast hn).toNat ≤ 57 :=
    Char.isDigit_iff_toNat.mp hdigit
  rw [Bool.eq_false_iff, ne_eq, Text.isLower_iff]
  omega

theorem isLegal_answer {separator : Text} (hs : IsPlain separator) (taken : List Text)
    {r : Request} (ha : ∀ name, r.alternative = some name → IsLegal name)
    (hw : IsLegal r.wanted) : IsLegal (Grant.answer separator taken r).name := by
  apply Grant.answer_induction taken hw ha
  intro n
  apply (hw.append hs).append_ofNat
  rw [startsWithDigit_append hw.nonempty, hw.start]

end Name

end Bindery

import Bindery.Name.Identifier
import Bindery.Proofs.Name.Grant

namespace Bindery

namespace Name

/-- The characters of a name are those that identifiers hold. -/
def IsPlain (name : Text) : Prop :=
  ∀ c ∈ name, isIdentifierChar c = true

theorem isPlain_of_all {name : Text} (h : name.all isIdentifierChar = true) : IsPlain name :=
  List.all_eq_true.mp h

theorem IsPlain.append {front back : Text} (hf : IsPlain front) (hb : IsPlain back) :
    IsPlain (front ++ back) := by
  intro c hc
  rcases List.mem_append.mp hc with hc | hc
  · exact hf c hc
  · exact hb c hc

theorem IsPlain.no_newline {name : Text} (h : IsPlain name) : '\n' ∉ name := by
  intro hn
  exact absurd (h '\n' hn) (by decide)

theorem isPlain_sanitize (name : Text) : IsPlain (sanitize name) := by
  intro c hc
  obtain ⟨d, -, rfl⟩ := List.mem_map.mp hc
  split
  · assumption
  · decide

theorem isPlain_ofNat (n : Nat) : IsPlain (Text.ofNat n) := by
  intro c hc
  have hd := Nat.isDigit_of_mem_toDigits (by decide) (by decide) hc
  have hall : ∀ i < 10, isIdentifierChar (Char.ofNat (48 + i)) = true := by decide
  have hb : 48 ≤ c.toNat ∧ c.toNat ≤ 57 := by
    simpa [Char.isDigit, UInt32.le_iff_toNat_le] using hd
  have hi := hall (c.toNat - 48) (by omega)
  rwa [Nat.add_sub_cancel' hb.1, Char.ofNat_toNat] at hi

theorem isPlain_member (label : Text) : IsPlain (member label) := by
  have hs := isPlain_sanitize (Text.shoutySnake label)
  simp only [member]
  split_ifs
  · exact isPlain_of_all (by decide)
  · exact (isPlain_of_all (by decide)).append hs
  · exact hs

theorem isPlain_className (name : Text) : IsPlain (className name) := by
  have hs := isPlain_sanitize (Text.upperCamel name)
  simp only [className]
  split_ifs
  · exact isPlain_of_all (by decide)
  · exact (isPlain_of_all (by decide)).append hs
  · exact hs

/-- A granted name holds no other characters than its request, the separator and a number. -/
theorem isPlain_answer {separator : Text} (hs : IsPlain separator) (taken : List Text)
    {r : Request} (ha : ∀ name, r.alternative = some name → IsPlain name)
    (hw : IsPlain r.wanted) : IsPlain (Grant.answer separator taken r).name := by
  apply Grant.answer_induction taken hw ha
  intro n
  exact (hw.append hs).append (isPlain_ofNat n)

/-- A name that can stand in code: of the characters of identifiers, and not empty. -/
structure IsProper (name : Text) : Prop where
  plain : IsPlain name
  nonempty : name ≠ []

theorem isProper_of_all {name : Text} (h : name.all isIdentifierChar = true)
    (hn : name.isEmpty = false) : IsProper name :=
  ⟨isPlain_of_all h, List.isEmpty_eq_false_iff.mp hn⟩

theorem IsProper.append {front back : Text} (hf : IsProper front) (hb : IsPlain back) :
    IsProper (front ++ back) :=
  ⟨hf.plain.append hb, List.append_ne_nil_of_left_ne_nil hf.nonempty back⟩

theorem isProper_sanitize {name : Text} (h : (sanitize name).isEmpty = false) :
    IsProper (sanitize name) :=
  ⟨isPlain_sanitize name, List.isEmpty_eq_false_iff.mp h⟩

theorem isProper_className (name : Text) : IsProper (className name) := by
  refine ⟨isPlain_className name, ?_⟩
  simp only [className]
  split_ifs with he
  · decide
  · exact List.cons_ne_nil 'T' _
  · simpa using he

theorem startsWithDigit_append {front : Text} (h : front ≠ []) (back : Text) :
    startsWithDigit (front ++ back) = startsWithDigit front := by
  rw [startsWithDigit, startsWithDigit, List.head?_append_of_ne_nil front h]

theorem startsWithDigit_className (name : Text) : startsWithDigit (className name) = false := by
  simp only [className]
  split_ifs with he hd
  · decide
  · exact startsWithDigit_append (List.cons_ne_nil 'T' []) _
  · simpa using hd

def lastSingular (name : Text) : Text :=
  match Text.splitLast? '_' name with
  | some (front, last) => if last.isEmpty then singular name else front ++ "_" ++ singular last
  | none => singular name

theorem recordClass_eq (sqlName : Text) :
    recordClass sqlName = className (lastSingular (bare sqlName)) := by
  simp only [recordClass, lastSingular]
  cases Text.splitLast? '_' (bare sqlName) with
  | none => rfl
  | some parts => exact (apply_ite className ..).symm

theorem isProper_identifier (name : Text) {fallback : Text} (h : IsProper fallback) :
    IsProper (identifier name fallback) := by
  have hu : IsPlain ['_'] := isPlain_of_all (by decide)
  simp only [identifier]
  split_ifs with he hd hk hk
  · exact h
  · exact ((h.append hu).append (isPlain_sanitize name)).append hu
  · exact (h.append hu).append (isPlain_sanitize name)
  · exact (isProper_sanitize (by simpa using he)).append hu
  · exact isProper_sanitize (by simpa using he)

theorem isProper_parameter (sqlName : Text) : IsProper (parameter sqlName) :=
  isProper_identifier _ (isProper_of_all (by decide) (by decide))

theorem isProper_function (sqlName : Text) : IsProper (function sqlName) :=
  isProper_identifier _ (isProper_of_all (by decide) (by decide))

theorem isProper_answer {separator : Text} (hs : IsPlain separator) (taken : List Text)
    {r : Request} (ha : ∀ name, r.alternative = some name → IsProper name)
    (hw : IsProper r.wanted) : IsProper (Grant.answer separator taken r).name := by
  apply Grant.answer_induction taken hw ha
  intro n
  exact (hw.append hs).append (isPlain_ofNat n)

end Name

end Bindery

import Bindery.Token.Basic
import Mathlib.Data.List.Basic

namespace Bindery.Token

variable {t : Token}

theorem kind_of_isKeyword {keyword : Text} (h : t.isKeyword keyword = true) : t.kind = .word := by
  rw [isKeyword, Bool.and_eq_true, beq_iff_eq] at h
  exact h.1

theorem kind_of_isAnyKeyword {keywords : List Text} (h : t.isAnyKeyword keywords = true) :
    t.kind = .word := by
  obtain ⟨keyword, -, hk⟩ := List.any_eq_true.mp h
  exact kind_of_isKeyword hk

theorem kind_of_isSymbol {c : Char} (h : t.isSymbol c = true) : t.kind = .symbol := by
  rw [isSymbol, Bool.and_eq_true, beq_iff_eq] at h
  exact h.1

theorem kind_of_stringValue? {value : Text} (h : t.stringValue? = some value) :
    t.kind = .string := by
  unfold stringValue? at h
  split at h
  · rename_i hs
    exact hs.1
  · cases h

theorem isSymbol_of_kind (h : t.kind ≠ .symbol) (c : Char) : t.isSymbol c = false := by
  simp [isSymbol, h]

theorem isKeyword_of_kind (h : t.kind ≠ .word) (keyword : Text) : t.isKeyword keyword = false := by
  simp [isKeyword, h]

theorem kind_of_isTrivia (h : t.isTrivia = true) : t.kind = .comment ∨ t.kind = .whitespace := by
  simpa [isTrivia, or_comm] using h

theorem isSymbol_of_trivia (h : t.isTrivia = true) (c : Char) : t.isSymbol c = false := by
  apply isSymbol_of_kind
  rcases kind_of_isTrivia h with h | h <;> simp [h]

theorem isKeyword_of_trivia (h : t.isTrivia = true) (keyword : Text) :
    t.isKeyword keyword = false := by
  apply isKeyword_of_kind
  rcases kind_of_isTrivia h with h | h <;> simp [h]

theorem isSymbol_of_isIdentifier (h : t.isIdentifier = true) (c : Char) : t.isSymbol c = false := by
  rw [isIdentifier, Bool.or_eq_true, beq_iff_eq, beq_iff_eq] at h
  apply isSymbol_of_kind
  rcases h with h | h <;> simp [h]

theorem isKeyword_of_isSymbol {c : Char} (h : t.isSymbol c = true) (keyword : Text) :
    t.isKeyword keyword = false := by
  apply isKeyword_of_kind
  simp [kind_of_isSymbol h]

theorem isAnyKeyword_of_symbol (h : t.kind = .symbol) (keywords : List Text) :
    t.isAnyKeyword keywords = false := by
  rw [isAnyKeyword, List.any_eq_false]
  intro keyword _
  simp [isKeyword_of_kind, h]

theorem isKeyword_of_other {keyword other : Text} (h : t.isKeyword keyword = true)
    (hn : keyword.sameIgnoringCase other = false) : t.isKeyword other = false := by
  simp only [isKeyword, Bool.and_eq_true, Text.sameIgnoringCase, beq_iff_eq] at h
  rw [Text.sameIgnoringCase, ← h.2] at hn
  rw [isKeyword, Text.sameIgnoringCase, hn, Bool.and_false]

end Bindery.Token

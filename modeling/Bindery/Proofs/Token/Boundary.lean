import Bindery.Proofs.Token.Spelling

namespace Bindery

open Text (Stops)
open Lexeme

/-- The second text is like the first up to a place where the second one ends or is blank. -/
inductive AgreesToBreak : Text → Text → Prop
  | stop {t u : Text} : Stops (fun c => !Text.isBlank c) u → AgreesToBreak t u
  | same {c : Char} {t u : Text} : AgreesToBreak t u → AgreesToBreak (c :: t) (c :: u)

theorem AgreesToBreak.append {t u : Text} (h : AgreesToBreak t u) (s : Text) :
    AgreesToBreak (s ++ t) (s ++ u) := by
  induction s with
  | nil => exact h
  | cons c s ih => exact .same ih

/-- A front without white space of the second text is a front of the first. -/
theorem AgreesToBreak.front {t front back : Text} (h : AgreesToBreak t (front ++ back))
    (hf : ∀ c ∈ front, Text.isBlank c = false) : ∃ rest, t = front ++ rest := by
  induction front generalizing t with
  | nil => exact ⟨t, rfl⟩
  | cons c front ih =>
    cases h with
    | stop hs =>
      have hc := hf c (by simp)
      simp [hc] at hs
    | same h =>
      obtain ⟨rest, rfl⟩ := ih h fun d hd => hf d (by simp [hd])
      exact ⟨rest, rfl⟩

theorem AgreesToBreak.stops {p : Char → Bool} {t u : Text} (h : AgreesToBreak t u)
    (ht : Stops p t) (hp : ∀ c, Text.isBlank c = true → p c = false) : Stops p u := by
  cases h with
  | stop hs =>
    intro c hc
    exact hp c (by simpa using hs c hc)
  | same => simpa using ht

theorem isNameChar_not_blank {c : Char} (h : isNameChar c = true) : Text.isBlank c = false := by
  rw [Bool.eq_false_iff]
  intro hb
  rw [isNameChar_of_blank hb] at h
  cases h

theorem Lexeme.TagName.name_chars {name : Text} (h : TagName name) :
    ∀ c ∈ name, isNameChar c = true := by
  intro c hc
  cases h with
  | empty => cases hc
  | named hd ht =>
    rcases List.mem_cons.mp hc with rfl | hc
    · exact isNameChar_of_start hd
    · simp [isNameChar, ht c hc]

theorem isDigit_not_blank {c : Char} (h : isDigit c = true) : Text.isBlank c = false :=
  StartsNumber.not_blank (t := []) (.inl h)

theorem isMantissaChar_not_blank {c : Char} (h : isMantissaChar c = true) :
    Text.isBlank c = false := by
  simp only [isMantissaChar, Bool.or_eq_true, beq_iff_eq] at h
  rcases h with h | rfl
  · exact isDigit_not_blank h
  · decide

def isNumberChar (c : Char) : Bool :=
  isMantissaChar c || ['e', 'E', '+', '-'].contains c

theorem isNumberChar_of_digit {c : Char} (h : isDigit c = true) : isNumberChar c = true := by
  simp [isNumberChar, isMantissaChar, h]

theorem isNumberChar_not_blank {c : Char} (h : isNumberChar c = true) :
    Text.isBlank c = false := by
  simp only [isNumberChar, Bool.or_eq_true, List.contains_iff_mem] at h
  rcases h with h | h
  · exact isMantissaChar_not_blank h
  · simp only [List.mem_cons, List.not_mem_nil, or_false] at h
    rcases h with rfl | rfl | rfl | rfl <;> decide

theorem Lexeme.Exponent.chars {e : Text} (h : Exponent e) : ∀ c ∈ e, isNumberChar c = true := by
  have he {c : Char} (hc : c = 'e' ∨ c = 'E') : isNumberChar c = true := by
    rcases hc with rfl | rfl <;> decide
  intro c hc
  cases h with
  | unsigned hx hd ht =>
    simp only [List.mem_cons] at hc
    rcases hc with rfl | rfl | hc
    · exact he hx
    · exact isNumberChar_of_digit hd
    · exact isNumberChar_of_digit (ht c hc)
  | signed hx hs hd ht =>
    simp only [List.mem_cons] at hc
    rcases hc with rfl | rfl | rfl | hc
    · exact he hx
    · rcases hs with rfl | rfl <;> decide
    · exact isNumberChar_of_digit hd
    · exact isNumberChar_of_digit (ht c hc)

theorem Lexeme.StartsNumber.isNumberChar {c : Char} {t : Text} (h : StartsNumber c t) :
    isNumberChar c = true := by
  rcases h with h | ⟨rfl, _⟩
  · exact isNumberChar_of_digit h
  · decide

theorem Spells.number_chars {t rest : Text} (h : Spells .number t rest) :
    ∀ c ∈ t, isNumberChar c = true := by
  have hm {d : Char} (hd : isMantissaChar d = true) : isNumberChar d = true := by
    simp [isNumberChar, hd]
  intro c hc
  cases h with
  | number hs ht _ =>
    rcases List.mem_cons.mp hc with rfl | hc
    · exact hs.isNumberChar
    · exact hm (ht c hc)
  | exponential hs ht he _ =>
    rcases List.mem_cons.mp hc with rfl | hc
    · exact hs.isNumberChar
    · rcases List.mem_append.mp hc with hc | hc
      · exact hm (ht c hc)
      · exact he.chars c hc

theorem AgreesToBreak.endsMantissa {t u : Text} (h : AgreesToBreak t u) (ht : EndsMantissa t) :
    EndsMantissa u := by
  refine ⟨h.stops ht.1 ?_, ?_⟩
  · intro c hc
    rw [Bool.eq_false_iff]
    intro hm
    rw [isMantissaChar_not_blank hm] at hc
    cases hc
  · rintro front back rfl he
    obtain ⟨rest, hr⟩ := h.front fun c hc => isNumberChar_not_blank (he.chars c hc)
    exact ht.2 front rest hr he

theorem AgreesToBreak.stops_eq {d : Char} {t u : Text} (h : AgreesToBreak t u)
    (ht : Stops (· == d) t) (hd : Text.isBlank d = false) : Stops (· == d) u := by
  apply h.stops ht
  intro c hc
  refine beq_false_of_ne ?_
  rintro rfl
  rw [hd] at hc
  cases hc

theorem AgreesToBreak.solitary {c : Char} {t u : Text} (h : AgreesToBreak t u)
    (ht : Solitary c t) : Solitary c u := by
  refine ⟨ht.not_blank, ht.not_quote, ht.not_name, ?_, ?_, ?_, ?_⟩
  · intro hc
    exact h.stops_eq (ht.no_comment hc) (by decide)
  · intro hc
    exact h.stops_eq (ht.no_block hc) (by decide)
  · rintro hc name after rfl hn
    have hf : ∀ d ∈ name ++ ['$'], Text.isBlank d = false := by
      intro d hd
      rcases List.mem_append.mp hd with hd | hd
      · exact isNameChar_not_blank (hn.name_chars d hd)
      · rw [List.mem_singleton.mp hd]
        decide
    rw [List.append_cons] at h
    obtain ⟨rest, hr⟩ := h.front hf
    exact ht.no_tag hc name rest (by simp [hr]) hn
  · rintro (hd | ⟨hc, d, v, rfl, hd⟩)
    · exact ht.no_number (.inl hd)
    · have hv : AgreesToBreak t ([d] ++ v) := h
      obtain ⟨rest, hr⟩ := hv.front (by simp [isDigit_not_blank hd])
      exact ht.no_number (.inr ⟨hc, d, rest, hr, hd⟩)

/-- A token keeps its spelling before a text that agrees with what followed it up to a break. -/
theorem Spells.agrees {kind : TokenKind} {t rest u : Text} (h : Spells kind t rest)
    (hw : kind ≠ .whitespace) (hc : kind ≠ .comment) (hu : AgreesToBreak rest u) :
    Spells kind t u := by
  cases h with
  | whitespace => exact absurd rfl hw
  | lineComment => exact absurd rfl hc
  | blockComment => exact absurd rfl hc
  | string ht hr => exact .string ht (hu.stops_eq hr (by decide))
  | escapeString he ht hr => exact .escapeString he ht (hu.stops_eq hr (by decide))
  | quotedIdentifier ht hr => exact .quotedIdentifier ht (hu.stops_eq hr (by decide))
  | dollarString htag hf => exact .dollarString htag hf
  | number hs ht hr => exact .number hs ht (hu.endsMantissa hr)
  | exponential hs ht he hr =>
    refine .exponential hs ht he (hu.stops hr ?_)
    intro d hd
    rw [Bool.eq_false_iff]
    intro hn
    rw [isDigit_not_blank hn] at hd
    cases hd
  | @word c t _ hs ht hr he =>
    refine .word hs ht (hu.stops hr fun d hd => isNameChar_of_blank hd) ?_
    intro hE
    exact (hu.append t).stops_eq (he hE) (by decide)
  | symbol hs => exact .symbol (hu.solitary hs)

/-- A token that is not white space or a comment keeps its spelling before further white space. -/
theorem Spells.before_blank {kind : TokenKind} {t rest : Text} (h : Spells kind t rest)
    (hw : kind ≠ .whitespace) (hc : kind ≠ .comment) {c : Char} (hb : Text.isBlank c = true)
    (tail : Text) : Spells kind t (rest ++ c :: tail) := by
  have hn : AgreesToBreak [] (c :: tail) := .stop (Text.stops_cons.mpr (by rw [hb]; rfl))
  have ha := hn.append rest
  rw [List.append_nil] at ha
  exact h.agrees hw hc ha

/-- A token keeps its spelling when white space is put somewhere behind what follows it. -/
theorem Spells.append_blank {kind : TokenKind} {t rest : Text} {d : Char}
    (h : Spells kind t (d :: rest)) {c : Char} (hb : Text.isBlank c = true) (tail : Text) :
    Spells kind t (d :: rest ++ c :: tail) := by
  by_cases hw : kind = .whitespace
  · subst hw
    cases h with
    | whitespace hc ht hr => exact .whitespace hc ht (hr.append _)
  by_cases hc : kind = .comment
  · subst hc
    cases h with
    | lineComment ht hr => exact .lineComment ht (hr.append _)
    | blockComment ht => exact .blockComment ht
  · exact h.before_blank hw hc hb tail

/-- A token of any kind keeps its spelling when the text behind it is cut short. -/
theorem Spells.cut {kind : TokenKind} {t rest u : Text} (h : Spells kind t (rest ++ u)) :
    Spells kind t rest := by
  have hs : AgreesToBreak (rest ++ u) rest := by
    simpa using AgreesToBreak.append (.stop (Text.stops_nil _) : AgreesToBreak u []) rest
  by_cases hw : kind = .whitespace
  · subst hw
    cases h with
    | whitespace hc ht hr => exact .whitespace hc ht hr.front
  by_cases hc : kind = .comment
  · subst hc
    cases h with
    | lineComment ht hr => exact .lineComment ht hr.front
    | blockComment ht => exact .blockComment ht
  exact h.agrees hw hc hs

theorem Spells.exists_first {kind : TokenKind} {t rest : Text} (h : Spells kind t rest)
    (hw : kind ≠ .whitespace) : ∃ c body, t = c :: body ∧ Text.isBlank c = false := by
  cases h with
  | whitespace => exact absurd rfl hw
  | lineComment => exact ⟨_, _, rfl, by decide⟩
  | blockComment => exact ⟨_, _, rfl, by decide⟩
  | string => exact ⟨_, _, rfl, by decide⟩
  | escapeString he => exact ⟨_, _, rfl, by rcases he with rfl | rfl <;> decide⟩
  | quotedIdentifier => exact ⟨_, _, rfl, by decide⟩
  | dollarString htag =>
    obtain ⟨name, _, rfl⟩ := htag
    exact ⟨_, _, rfl, by decide⟩
  | number hs => exact ⟨_, _, rfl, hs.not_blank⟩
  | exponential hs => exact ⟨_, _, rfl, hs.not_blank⟩
  | word hs => exact ⟨_, _, rfl, isNameStart_not_blank hs⟩
  | symbol hs => exact ⟨_, _, rfl, hs.not_blank⟩

theorem Lexeme.QuotedTail.exists_concat {quote : Char} {escapes : Bool} {t : Text}
    (h : QuotedTail quote escapes t) : ∃ front, t = front ++ [quote] := by
  induction h with
  | close => exact ⟨[], rfl⟩
  | plain _ _ _ ih =>
    obtain ⟨front, rfl⟩ := ih
    exact ⟨_ :: front, rfl⟩
  | doubled _ ih =>
    obtain ⟨front, rfl⟩ := ih
    exact ⟨_ :: _ :: front, rfl⟩
  | escaped _ _ ih =>
    obtain ⟨front, rfl⟩ := ih
    exact ⟨_ :: _ :: front, rfl⟩

theorem exists_concat_of_forall {t : Text} (hn : t ≠ [])
    (h : ∀ c ∈ t, Text.isBlank c = false) :
    ∃ front c, t = front ++ [c] ∧ Text.isBlank c = false :=
  ⟨t.dropLast, t.getLast hn, (List.dropLast_concat_getLast hn).symm, h _ (List.getLast_mem hn)⟩

theorem Spells.exists_last {kind : TokenKind} {t rest : Text} (h : Spells kind t rest)
    (hw : kind ≠ .whitespace) (hc : kind ≠ .comment) :
    ∃ front c, t = front ++ [c] ∧ Text.isBlank c = false := by
  cases h with
  | whitespace => exact absurd rfl hw
  | lineComment => exact absurd rfl hc
  | blockComment => exact absurd rfl hc
  | string ht _ =>
    obtain ⟨front, rfl⟩ := ht.exists_concat
    exact ⟨_ :: front, _, rfl, by decide⟩
  | escapeString _ ht _ =>
    obtain ⟨front, rfl⟩ := ht.exists_concat
    exact ⟨_ :: _ :: front, _, rfl, by decide⟩
  | quotedIdentifier ht _ =>
    obtain ⟨front, rfl⟩ := ht.exists_concat
    exact ⟨_ :: front, _, rfl, by decide⟩
  | @dollarString tag body _ htag _ =>
    obtain ⟨name, _, rfl⟩ := htag
    exact ⟨'$' :: (name ++ ['$']) ++ body ++ '$' :: name, '$', by simp, by decide⟩
  | number hs ht hr =>
    refine exists_concat_of_forall (by simp) ?_
    intro d hd
    exact isNumberChar_not_blank ((Spells.number hs ht hr).number_chars d hd)
  | exponential hs ht he hr =>
    refine exists_concat_of_forall (by simp) ?_
    intro d hd
    exact isNumberChar_not_blank ((Spells.exponential hs ht he hr).number_chars d hd)
  | word hs ht _ _ =>
    refine exists_concat_of_forall (by simp) ?_
    intro d hd
    rcases List.mem_cons.mp hd with rfl | hd
    · exact isNameStart_not_blank hs
    · exact isNameChar_not_blank (ht d hd)
  | symbol hs => exact ⟨[], _, rfl, hs.not_blank⟩

end Bindery

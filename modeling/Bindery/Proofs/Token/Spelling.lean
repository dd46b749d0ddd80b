import Bindery.Proofs.Token.Grammar

namespace Bindery

open Text (Stops)

namespace Lexeme

def isMantissaChar (c : Char) : Bool :=
  isDigit c || c == '.'

/-- What follows a number without an exponent: no digit, no point, no exponent. -/
def EndsMantissa (rest : Text) : Prop :=
  Stops isMantissaChar rest ∧ ∀ front back, rest = front ++ back → ¬ Exponent front

/-- A number begins with a digit, or with a point before a digit. -/
def StartsNumber (c : Char) (t : Text) : Prop :=
  isDigit c = true ∨ (c = '.' ∧ ∃ d rest, t = d :: rest ∧ isDigit d = true)

/-- A character that begins no longer token before `rest`. -/
structure Solitary (c : Char) (rest : Text) : Prop where
  not_blank : Text.isBlank c = false
  not_quote : c ≠ '\'' ∧ c ≠ '"'
  not_name : isNameStart c = false
  no_comment : c = '-' → Stops (· == '-') rest
  no_block : c = '/' → Stops (· == '*') rest
  no_tag : c = '$' → Untagged rest
  no_number : ¬ StartsNumber c rest

end Lexeme

open Lexeme

/-- A text is a token of the given kind where `rest` follows it. -/
inductive Spells : TokenKind → Text → Text → Prop
  | whitespace {c : Char} {t rest : Text} : Text.isBlank c = true →
      (∀ d ∈ t, Text.isBlank d = true) → Stops Text.isBlank rest → Spells .whitespace (c :: t) rest
  | lineComment {t rest : Text} : '\n' ∉ t → Stops (· != '\n') rest →
      Spells .comment ('-' :: '-' :: t) rest
  | blockComment {t rest : Text} : CommentTail 0 t → Spells .comment ('/' :: '*' :: t) rest
  | string {t rest : Text} : QuotedTail '\'' false t → Stops (· == '\'') rest →
      Spells .string ('\'' :: t) rest
  | escapeString {e : Char} {t rest : Text} : (e = 'E' ∨ e = 'e') → QuotedTail '\'' true t →
      Stops (· == '\'') rest → Spells .string (e :: '\'' :: t) rest
  | quotedIdentifier {t rest : Text} : QuotedTail '"' false t → Stops (· == '"') rest →
      Spells .quotedIdentifier ('"' :: t) rest
  | dollarString {tag body rest : Text} : Delimiter tag → Text.FirstAt tag body →
      Spells .dollarString (tag ++ body ++ tag) rest
  | number {c : Char} {t rest : Text} : StartsNumber c t →
      (∀ d ∈ t, isMantissaChar d = true) → EndsMantissa rest → Spells .number (c :: t) rest
  | exponential {c : Char} {t e rest : Text} : StartsNumber c t →
      (∀ d ∈ t, isMantissaChar d = true) → Exponent e → Stops isDigit rest →
      Spells .number (c :: (t ++ e)) rest
  | word {c : Char} {t rest : Text} : isNameStart c = true → (∀ d ∈ t, isNameChar d = true) →
      Stops isNameChar rest → (c = 'E' ∨ c = 'e' → Stops (· == '\'') (t ++ rest)) →
      Spells .word (c :: t) rest
  | symbol {c : Char} {rest : Text} : Solitary c rest → Spells .symbol [c] rest

/-- No front of the text is the rest of a quoted text. -/
def NeverCloses (quote : Char) (escapes : Bool) (t : Text) : Prop :=
  ∀ front back, t = front ++ back → QuotedTail quote escapes front → ¬ Stops (· == quote) back

/-- The first characters of a text open a construct that the text does not close. -/
inductive Unclosed : Construct → Text → Prop
  | string {t : Text} : NeverCloses '\'' false t → Unclosed .stringLiteral ('\'' :: t)
  | escapeString {e : Char} {t : Text} : (e = 'E' ∨ e = 'e') → NeverCloses '\'' true t →
      Unclosed .stringLiteral (e :: '\'' :: t)
  | quotedIdentifier {t : Text} : NeverCloses '"' false t → Unclosed .quotedIdentifier ('"' :: t)
  | blockComment {t : Text} : (∀ front back, t = front ++ back → ¬ CommentTail 0 front) →
      Unclosed .blockComment ('/' :: '*' :: t)
  | dollarString {tag t : Text} : Delimiter tag → ¬ tag <:+: t → Unclosed .dollarString (tag ++ t)

/-- How many characters are read of a text that opens a construct and does not close it. -/
def Construct.passed : Construct → Text → Nat
  | .dollarString, _ => 0
  | _, t => t.length

theorem quoted_never {quote : Char} {escapes : Bool} {t : Text} {n : Nat} (hq : quote ≠ '\\')
    (h : quoted quote escapes t = .exhausted n) : NeverCloses quote escapes t := by
  rintro front back rfl hf hb
  rw [quoted_complete hq hf hb] at h
  cases h

theorem blockComment_never {t : Text} {n : Nat} (h : blockComment 0 t = .exhausted n) :
    ∀ front back, t = front ++ back → ¬ CommentTail 0 front := by
  rintro front back rfl hf
  rw [blockComment_complete hf] at h
  cases h

theorem dollarBody_eq (name t : Text) :
    dollarBody (name.length + 1) (name ++ '$' :: t) =
      (Text.find? ('$' :: (name ++ ['$'])) t).map fun body =>
        name.length + 1 + body + (name.length + 2) := by
  have ht : (name ++ '$' :: t).take (name.length + 1) = name ++ ['$'] := by
    rw [List.append_cons]
    exact List.take_left' (by simp)
  have hd : (name ++ '$' :: t).drop (name.length + 1) = t := by
    rw [List.append_cons]
    exact List.drop_left' (by simp)
  rw [dollarBody, ht, hd]

theorem dollarBody_sound {name t : Text} {n : Nat} (hn : TagName name)
    (h : dollarBody (name.length + 1) (name ++ '$' :: t) = some n) :
    ∃ body rest, name ++ '$' :: t = body ++ rest ∧ body.length = n ∧
      Spells .dollarString ('$' :: body) rest := by
  rw [dollarBody_eq] at h
  obtain ⟨m, hm, rfl⟩ := Option.map_eq_some_iff.mp h
  obtain ⟨front, rest, rfl, rfl, hf⟩ := Text.find?_sound hm
  refine ⟨name ++ ['$'] ++ front ++ '$' :: (name ++ ['$']), rest, by simp, by simp; omega, ?_⟩
  exact .dollarString ⟨name, hn, rfl⟩ hf

theorem dollarBody_none {name t : Text} (hn : TagName name)
    (h : dollarBody (name.length + 1) (name ++ '$' :: t) = none) :
    Unclosed .dollarString ('$' :: (name ++ '$' :: t)) := by
  rw [dollarBody_eq] at h
  have hf := Text.find?_none (Option.map_eq_none_iff.mp h)
  rw [List.append_cons]
  exact .dollarString ⟨name, hn, rfl⟩ hf

theorem Lexeme.StartsNumber.front {c : Char} {t rest : Text} (h : StartsNumber c (t ++ rest))
    (hr : Stops isMantissaChar rest) : StartsNumber c t := by
  rcases h with h | ⟨hc, d, u, hu, hd⟩
  · exact .inl h
  · cases t with
    | nil =>
      have hs := hr d (by rw [List.nil_append] at hu; rw [hu]; rfl)
      simp [isMantissaChar, hd] at hs
    | cons e t =>
      obtain ⟨rfl, _⟩ := List.cons.inj hu
      exact .inr ⟨hc, e, t, rfl, hd⟩

theorem number_complete {t rest : Text} (ht : ∀ d ∈ t, isMantissaChar d = true)
    (hr : Stops isMantissaChar rest) : number (t ++ rest) = t.length + exponent rest := by
  change ((t ++ rest).takeWhile isMantissaChar).length +
    exponent ((t ++ rest).drop ((t ++ rest).takeWhile isMantissaChar).length) = _
  rw [Text.takeWhile_eq ht hr, List.drop_left]

theorem number_sound {c : Char} {t : Text} (h : StartsNumber c t) :
    ∃ body rest, t = body ++ rest ∧ body.length = number t ∧ Spells .number (c :: body) rest := by
  obtain ⟨body, rest, rfl, _, hb, hr⟩ := Text.exists_front isMantissaChar t
  have hn := number_complete hb hr
  have hs := h.front hr
  rcases exponent_sound rest with ⟨he, hx⟩ | ⟨e, after, rfl, he, hx, ha⟩
  · exact ⟨body, rest, rfl, by rw [hn, he, Nat.add_zero], .number hs hb ⟨hr, hx⟩⟩
  · refine ⟨body ++ e, after, by simp, ?_, .exponential hs hb hx ha⟩
    rw [hn, he, List.length_append]

theorem solitary_dollar {t : Text} (h : dollarTag? t = none) : Solitary '$' t := by
  refine ⟨by decide, by decide, by decide, by simp, by simp, ?_, ?_⟩
  · exact fun _ => dollarTag?_eq_none_iff.mp h
  · rintro (hd | ⟨hp, _⟩)
    · exact absurd hd (by decide)
    · exact absurd hp (by decide)

/-- The reader gives a spelled token, or a construct that is not closed. -/
theorem lexeme_spec (c : Char) (t : Text) :
    match lexeme c t with
    | .ok (kind, n) =>
      ∃ body rest, t = body ++ rest ∧ body.length = n ∧ Spells kind (c :: body) rest
    | .error (construct, n) =>
      Unclosed construct (c :: t) ∧ n = construct.passed (c :: t) := by
  fun_cases lexeme c t with
  | case1 hc =>
    obtain ⟨body, rest, rfl, hl, hb, hr⟩ := Text.exists_front Text.isBlank t
    exact ⟨body, rest, rfl, hl.symm, .whitespace hc hb hr⟩
  | case2 _ hc =>
    obtain ⟨rfl, ht⟩ := hc
    obtain ⟨t, rfl⟩ := List.head?_eq_some_iff.mp ht
    obtain ⟨body, rest, rfl, hl, hb, hr⟩ := Text.exists_front (· != '\n') t
    refine ⟨'-' :: body, rest, rfl, ?_, .lineComment ?_ hr⟩
    · simp [hl]
    · intro hm
      simpa using hb _ hm
  | case3 _ _ hc n hn =>
    obtain ⟨rfl, ht⟩ := hc
    obtain ⟨t, rfl⟩ := List.head?_eq_some_iff.mp ht
    obtain ⟨body, rest, rfl, rfl, hb⟩ := blockComment_sound hn
    exact ⟨'*' :: body, rest, rfl, rfl, .blockComment hb⟩
  | case4 _ _ hc n hn =>
    obtain ⟨rfl, ht⟩ := hc
    obtain ⟨t, rfl⟩ := List.head?_eq_some_iff.mp ht
    have hl : n = t.length := blockComment_exhausted hn
    exact ⟨.blockComment (blockComment_never hn), by rw [hl]; rfl⟩
  | case5 _ _ _ hc n hn =>
    subst hc
    obtain ⟨body, rest, rfl, rfl, hb, hr⟩ := quoted_sound hn
    exact ⟨body, rest, rfl, rfl, .string hb hr⟩
  | case6 _ _ _ hc n hn =>
    subst hc
    have hl : n = t.length := quoted_exhausted hn
    exact ⟨.string (quoted_never (by decide) hn), by rw [hl]; rfl⟩
  | case7 _ _ _ _ hc n hn =>
    obtain ⟨t, rfl⟩ := List.head?_eq_some_iff.mp hc.2
    obtain ⟨body, rest, rfl, rfl, hb, hr⟩ := quoted_sound hn
    exact ⟨'\'' :: body, rest, rfl, rfl, .escapeString hc.1 hb hr⟩
  | case8 _ _ _ _ hc n hn =>
    obtain ⟨t, rfl⟩ := List.head?_eq_some_iff.mp hc.2
    have hl : n = t.length := quoted_exhausted hn
    exact ⟨.escapeString hc.1 (quoted_never (by decide) hn), by rw [hl]; rfl⟩
  | case9 _ _ _ _ _ hc n hn =>
    subst hc
    obtain ⟨body, rest, rfl, rfl, hb, hr⟩ := quoted_sound hn
    exact ⟨body, rest, rfl, rfl, .quotedIdentifier hb hr⟩
  | case10 _ _ _ _ _ hc n hn =>
    subst hc
    have hl : n = t.length := quoted_exhausted hn
    exact ⟨.quotedIdentifier (quoted_never (by decide) hn), by rw [hl]; rfl⟩
  | case11 _ _ _ _ _ _ hc m hm n hn =>
    subst hc
    obtain ⟨name, rest, rfl, rfl, hname⟩ := dollarTag?_sound hm
    exact dollarBody_sound hname hn
  | case12 _ _ _ _ _ _ hc m hm hn =>
    subst hc
    obtain ⟨name, rest, rfl, rfl, hname⟩ := dollarTag?_sound hm
    exact ⟨dollarBody_none hname hn, rfl⟩
  | case13 hb _ _ _ _ _ hc hn =>
    subst hc
    exact ⟨[], t, rfl, rfl, .symbol (solitary_dollar hn)⟩
  | case14 _ _ _ _ _ _ _ hc =>
    apply number_sound
    rcases hc with hc | ⟨hc, hd⟩
    · exact .inl hc
    · cases t with
      | nil => cases hd
      | cons d t => exact .inr ⟨hc, d, t, rfl, hd⟩
  | case15 _ _ _ _ he _ _ _ hc =>
    obtain ⟨body, rest, rfl, hl, hb, hr⟩ := Text.exists_front isNameChar t
    refine ⟨body, rest, rfl, hl.symm, .word hc hb hr ?_⟩
    intro hE d hd
    exact beq_false_of_ne fun hq => he ⟨hE, hq ▸ hd⟩
  | case16 hb hl hk hs _ hi hd hn hc =>
    refine ⟨[], t, rfl, rfl,
      .symbol ⟨by simpa using hb, ⟨hs, hi⟩, by simpa using hc, ?_, ?_, ?_, ?_⟩⟩
    · intro he d ht
      exact beq_false_of_ne fun hq => hl ⟨he, hq ▸ ht⟩
    · intro he d ht
      exact beq_false_of_ne fun hq => hk ⟨he, hq ▸ ht⟩
    · intro he
      exact absurd he hd
    · rintro (he | ⟨he, d, u, rfl, hu⟩)
      · exact hn (.inl he)
      · exact hn (.inr ⟨he, hu⟩)

theorem Lexeme.StartsNumber.extend {c : Char} {t : Text} (h : StartsNumber c t) (rest : Text) :
    StartsNumber c (t ++ rest) := by
  rcases h with h | ⟨hc, d, u, rfl, hd⟩
  · exact .inl h
  · exact .inr ⟨hc, d, u ++ rest, rfl, hd⟩

theorem Lexeme.StartsNumber.ne {c d : Char} {t : Text} (h : StartsNumber c t)
    (hd : isDigit d = false) (hp : d ≠ '.') : c ≠ d := by
  rintro rfl
  rcases h with h | ⟨h, _⟩
  · rw [hd] at h
    cases h
  · exact hp h

theorem Lexeme.StartsNumber.not_blank {c : Char} {t : Text} (h : StartsNumber c t) :
    Text.isBlank c = false := by
  rcases h with h | ⟨rfl, _⟩
  · rw [isDigit_iff] at h
    rw [Bool.eq_false_iff]
    intro hb
    simp only [Text.isBlank, Bool.or_eq_true, Bool.and_eq_true, decide_eq_true_eq, beq_iff_eq] at hb
    omega
  · decide

theorem isNameStart_ne {c d : Char} (h : isNameStart c = true) (hd : isNameStart d = false) :
    c ≠ d := by
  rintro rfl
  rw [hd] at h
  cases h

theorem isNameStart_not_blank {c : Char} (h : isNameStart c = true) : Text.isBlank c = false := by
  rw [Bool.eq_false_iff]
  intro hb
  have hn := isNameChar_of_blank hb
  rw [isNameChar_of_start h] at hn
  cases hn

theorem lexeme_number {c : Char} {t : Text} (h : StartsNumber c t) :
    lexeme c t = .ok (.number, number t) := by
  have hb := h.not_blank
  have hd : isDigit c = true ∨ (c = '.' ∧ t.head?.any isDigit = true) := by
    rcases h with h | ⟨hc, d, u, rfl, hd⟩
    · exact .inl h
    · exact .inr ⟨hc, hd⟩
  have h₁ : c ≠ '-' := h.ne (by decide) (by decide)
  have h₂ : c ≠ '/' := h.ne (by decide) (by decide)
  have h₃ : c ≠ '\'' := h.ne (by decide) (by decide)
  have h₄ : ¬ (c = 'E' ∨ c = 'e') :=
    not_or.mpr ⟨h.ne (by decide) (by decide), h.ne (by decide) (by decide)⟩
  have h₅ : c ≠ '"' := h.ne (by decide) (by decide)
  have h₆ : c ≠ '$' := h.ne (by decide) (by decide)
  simp only [lexeme, hb, h₁, h₂, h₃, h₄, h₅, h₆, hd, false_and, ite_true, ite_false,
    Bool.false_eq_true]

theorem lexeme_word {c : Char} {t : Text} (h : isNameStart c = true)
    (he : c = 'E' ∨ c = 'e' → Stops (· == '\'') t) :
    lexeme c t = .ok (.word, (t.takeWhile isNameChar).length) := by
  have hb := isNameStart_not_blank h
  have hE : ¬ ((c = 'E' ∨ c = 'e') ∧ t.head? = some '\'') :=
    fun hE => by simpa using he hE.1 _ hE.2
  have h₁ : c ≠ '-' := isNameStart_ne h (by decide)
  have h₂ : c ≠ '/' := isNameStart_ne h (by decide)
  have h₃ : c ≠ '\'' := isNameStart_ne h (by decide)
  have h₄ : c ≠ '"' := isNameStart_ne h (by decide)
  have h₅ : c ≠ '$' := isNameStart_ne h (by decide)
  have h₆ : c ≠ '.' := isNameStart_ne h (by decide)
  have h₇ : isDigit c = false := by
    rw [Bool.eq_false_iff]
    intro hd
    rw [isNameStart_of_digit hd] at h
    cases h
  simp only [lexeme, hb, hE, h, h₁, h₂, h₃, h₄, h₅, h₆, h₇, false_and, or_false, ite_true,
    ite_false, Bool.false_eq_true]

theorem lexeme_symbol {c : Char} {t : Text} (h : Solitary c t) :
    lexeme c t = .ok (.symbol, 0) := by
  have hb := h.not_blank
  have hn := h.not_name
  have h₁ : ¬ (c = '-' ∧ t.head? = some '-') := fun hc => by simpa using h.no_comment hc.1 _ hc.2
  have h₂ : ¬ (c = '/' ∧ t.head? = some '*') := fun hc => by simpa using h.no_block hc.1 _ hc.2
  have h₃ : ¬ (c = 'E' ∨ c = 'e') := by
    rintro (rfl | rfl)
    · exact absurd hn (by decide)
    · exact absurd hn (by decide)
  have h₄ : ¬ (isDigit c = true ∨ (c = '.' ∧ t.head?.any isDigit = true)) := by
    rintro (hd | ⟨hp, hd⟩)
    · exact h.no_number (.inl hd)
    · cases t with
      | nil => cases hd
      | cons d t => exact h.no_number (.inr ⟨hp, d, t, rfl, hd⟩)
  by_cases hc : c = '$'
  · have ht : dollarTag? t = none := dollarTag?_eq_none_iff.mpr (h.no_tag hc)
    subst hc
    simp [lexeme, hb, ht]
  · simp only [lexeme, hb, hn, h₁, h₂, h₃, h₄, hc, h.not_quote.1, h.not_quote.2, false_and,
      ite_false, Bool.false_eq_true]

theorem lexeme_dollar {name t : Text} {n : Nat} (h : TagName name)
    (hd : dollarBody (name.length + 1) (name ++ '$' :: t) = some n) :
    lexeme '$' (name ++ '$' :: t) = .ok (.dollarString, n) := by
  simp [lexeme, show Text.isBlank '$' = false from rfl, dollarTag?_complete h, hd]

theorem Spells.dollarBody_complete {c : Char} {t rest : Text}
    (h : Spells .dollarString (c :: t) rest) :
    c = '$' ∧ ∃ name u, TagName name ∧ t ++ rest = name ++ '$' :: u ∧
      dollarBody (name.length + 1) (t ++ rest) = some t.length := by
  generalize hs : c :: t = s at h
  cases h with
  | @dollarString tag body _ htag hf =>
    obtain ⟨name, hn, rfl⟩ := htag
    obtain ⟨rfl, rfl⟩ := List.cons.inj hs
    have he : name ++ ['$'] ++ body ++ '$' :: (name ++ ['$']) ++ rest =
        name ++ '$' :: (body ++ '$' :: (name ++ ['$']) ++ rest) := by simp
    refine ⟨rfl, name, _, hn, he, ?_⟩
    change dollarBody _ (name ++ ['$'] ++ body ++ '$' :: (name ++ ['$']) ++ rest) =
      some (name ++ ['$'] ++ body ++ '$' :: (name ++ ['$'])).length
    rw [he, dollarBody_eq, Text.find?_complete hf]
    simp only [Option.map_some, List.length_append, List.length_cons, List.length_nil]

theorem lexeme_complete {kind : TokenKind} {c : Char} {t rest : Text}
    (h : Spells kind (c :: t) rest) : lexeme c (t ++ rest) = .ok (kind, t.length) := by
  generalize hs : c :: t = s at h
  cases h with
  | whitespace hc ht hr =>
    cases hs
    rw [lexeme, if_pos hc, Text.takeWhile_eq ht hr]
  | @lineComment u _ hu hr =>
    cases hs
    have hw : (u ++ rest).takeWhile (· != '\n') = u :=
      Text.takeWhile_eq (fun d hd => by simpa using ne_of_mem_of_not_mem hd hu) hr
    simp [lexeme, hw, show Text.isBlank '-' = false from rfl]
  | blockComment ht =>
    cases hs
    simp [lexeme, blockComment_complete ht, show Text.isBlank '/' = false from rfl]
  | string ht hr =>
    cases hs
    simp [lexeme, quoted_complete (by decide) ht hr, show Text.isBlank '\'' = false from rfl]
  | escapeString he ht hr =>
    cases hs
    rcases he with rfl | rfl
    · simp [lexeme, quoted_complete (by decide) ht hr, show Text.isBlank 'E' = false from rfl]
    · simp [lexeme, quoted_complete (by decide) ht hr, show Text.isBlank 'e' = false from rfl]
  | quotedIdentifier ht hr =>
    cases hs
    simp [lexeme, quoted_complete (by decide) ht hr, show Text.isBlank '"' = false from rfl]
  | dollarString htag hf =>
    have hd : Spells .dollarString _ rest := .dollarString htag hf
    rw [← hs] at hd
    obtain ⟨rfl, name, u, hn, hu, hb⟩ := hd.dollarBody_complete
    rw [hu] at hb ⊢
    exact lexeme_dollar hn hb
  | number hc ht hr =>
    cases hs
    rw [lexeme_number (hc.extend rest), number_complete ht hr.1, exponent_none hr.2, Nat.add_zero]
  | @exponential _ u e _ hc ht he hr =>
    cases hs
    rw [List.append_assoc, lexeme_number (hc.extend _), number_complete ht, exponent_complete he hr,
      List.length_append]
    cases he with
    | unsigned he _ _ => rcases he with rfl | rfl <;> simp <;> decide
    | signed he _ _ _ => rcases he with rfl | rfl <;> simp <;> decide
  | word hc ht hr he =>
    cases hs
    rw [lexeme_word hc he, Text.takeWhile_eq ht hr]
  | symbol hc =>
    cases hs
    exact lexeme_symbol hc

theorem lexeme_sound {kind : TokenKind} {c : Char} {t : Text} {n : Nat}
    (h : lexeme c t = .ok (kind, n)) :
    ∃ body rest, t = body ++ rest ∧ body.length = n ∧ Spells kind (c :: body) rest := by
  have hs := lexeme_spec c t
  rw [h] at hs
  exact hs

theorem lexeme_unclosed {construct : Construct} {c : Char} {t : Text} {n : Nat}
    (h : lexeme c t = .error (construct, n)) :
    Unclosed construct (c :: t) ∧ n = construct.passed (c :: t) := by
  have hs := lexeme_spec c t
  rw [h] at hs
  exact hs

end Bindery

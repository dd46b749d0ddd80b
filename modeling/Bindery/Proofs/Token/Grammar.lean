import Bindery.Proofs.Text.Basic
import Bindery.Token.Lexeme

namespace Bindery

open Text (Stops)

namespace Lexeme

/-- The rest of a quoted text behind its opening quote, with its closing quote. -/
inductive QuotedTail (quote : Char) (escapes : Bool) : Text → Prop
  | close : QuotedTail quote escapes [quote]
  | plain {c : Char} {t : Text} : c ≠ quote → ¬ (escapes ∧ c = '\\') →
      QuotedTail quote escapes t → QuotedTail quote escapes (c :: t)
  | doubled {t : Text} : QuotedTail quote escapes t → QuotedTail quote escapes (quote :: quote :: t)
  | escaped {c : Char} {t : Text} : escapes → QuotedTail quote escapes t →
      QuotedTail quote escapes ('\\' :: c :: t)

/-- The rest of a block comment inside which `depth` further comments are open. -/
inductive CommentTail : Nat → Text → Prop
  | close : CommentTail 0 ['*', '/']
  | inner {depth : Nat} {t : Text} : CommentTail (depth + 1) t → CommentTail depth ('/' :: '*' :: t)
  | outer {depth : Nat} {t : Text} : CommentTail depth t → CommentTail (depth + 1) ('*' :: '/' :: t)
  | plain {depth : Nat} {c : Char} {t : Text} : (c = '/' → Stops (· == '*') t) →
      (c = '*' → Stops (· == '/') t) → CommentTail depth t → CommentTail depth (c :: t)

/-- What may stand between the two dollars of a tag. -/
inductive TagName : Text → Prop
  | empty : TagName []
  | named {c : Char} {t : Text} : isNameStart c = true → (∀ d ∈ t, isTagChar d = true) →
      TagName (c :: t)

/-- The mark at either end of a dollar-quoted text. -/
def Delimiter (tag : Text) : Prop :=
  ∃ name, TagName name ∧ tag = '$' :: (name ++ ['$'])

/-- What follows a dollar sign that begins no dollar-quoted text. -/
def Untagged (t : Text) : Prop :=
  ∀ name after, t = name ++ '$' :: after → ¬ TagName name

/-- The exponent of a number. -/
inductive Exponent : Text → Prop
  | unsigned {e d : Char} {t : Text} : (e = 'e' ∨ e = 'E') → isDigit d = true →
      (∀ c ∈ t, isDigit c = true) → Exponent (e :: d :: t)
  | signed {e s d : Char} {t : Text} : (e = 'e' ∨ e = 'E') → (s = '+' ∨ s = '-') →
      isDigit d = true → (∀ c ∈ t, isDigit c = true) → Exponent (e :: s :: d :: t)

theorem isDigit_iff {c : Char} : isDigit c = true ↔ 48 ≤ c.toNat ∧ c.toNat ≤ 57 := by
  simp only [isDigit, Bool.and_eq_true, decide_eq_true_eq, Char.le_def, UInt32.le_iff_toNat_le]
  exact Iff.rfl

theorem isNameChar_of_start {c : Char} (h : isNameStart c = true) : isNameChar c = true := by
  simp only [isNameStart, Bool.or_eq_true] at h
  rcases h with h | h <;> simp [isNameChar, isTagChar, Text.isAlphanumeric, h]

theorem isNameChar_of_blank {c : Char} (h : Text.isBlank c = true) : isNameChar c = false := by
  have ht : ∀ n ∈ Text.blankPoints, Text.inRanges n Text.alphabeticRanges = false ∧
      Text.inRanges n Text.numericRanges = false := by
    decide +kernel
  have hn := ht c.toNat (Text.mem_blankPoints h)
  have hu : c ≠ '_' := by rintro rfl; exact absurd h (by decide)
  have hd : c ≠ '$' := by rintro rfl; exact absurd h (by decide)
  simp [isNameChar, isTagChar, Text.isAlphanumeric, Text.isAlphabetic, Text.isNumeric, hn, hu, hd]

theorem isNameStart_of_digit {c : Char} (h : isDigit c = true) : isNameStart c = false := by
  have ht : ∀ n ∈ [48, 49, 50, 51, 52, 53, 54, 55, 56, 57],
      Text.inRanges n Text.alphabeticRanges = false := by
    decide
  have hn := ht c.toNat (by
    rw [isDigit_iff] at h
    simp only [List.mem_cons, List.not_mem_nil, or_false]
    omega)
  have hu : c ≠ '_' := by rintro rfl; exact absurd h (by decide)
  simp [isNameStart, Text.isAlphabetic, hn, hu]

theorem Scan.past_eq_closed {scan : Scan} {k n : Nat} (h : scan.past k = .closed n) :
    ∃ m, scan = .closed m ∧ m + k = n := by
  cases scan with
  | closed m => exact ⟨m, rfl, Scan.closed.inj h⟩
  | exhausted m => cases h

theorem Scan.past_eq_exhausted {scan : Scan} {k n : Nat} (h : scan.past k = .exhausted n) :
    ∃ m, scan = .exhausted m ∧ m + k = n := by
  cases scan with
  | closed m => cases h
  | exhausted m => exact ⟨m, rfl, Scan.exhausted.inj h⟩

theorem quoted_cons {quote : Char} {escapes : Bool} {c : Char} (hc : c ≠ quote)
    (he : ¬ (escapes ∧ c = '\\')) (t : Text) :
    quoted quote escapes (c :: t) = (quoted quote escapes t).past 1 := by
  cases t with
  | nil => simp [quoted, hc, Scan.past]
  | cons d t => rw [quoted, if_neg he, if_neg hc]

theorem quoted_complete {quote : Char} {escapes : Bool} {t rest : Text} (hq : quote ≠ '\\')
    (h : QuotedTail quote escapes t) (hr : Stops (· == quote) rest) :
    quoted quote escapes (t ++ rest) = .closed t.length := by
  induction h with
  | close =>
    cases rest with
    | nil => simp [quoted]
    | cons d rest =>
      have hd : d ≠ quote := by simpa using hr
      simp [quoted, hq, hd]
  | plain hc he _ ih =>
    rw [List.cons_append, quoted_cons hc he, ih]
    rfl
  | doubled _ ih => simp [quoted, hq, ih, Scan.past]
  | escaped he _ ih =>
    subst he
    simp [quoted, ih, Scan.past]

theorem quoted_sound {quote : Char} {escapes : Bool} {t : Text} {n : Nat}
    (h : quoted quote escapes t = .closed n) :
    ∃ body rest, t = body ++ rest ∧ body.length = n ∧ QuotedTail quote escapes body ∧
      Stops (· == quote) rest := by
  fun_induction quoted quote escapes t generalizing n with
  | case1 => cases h
  | case2 =>
    cases h
    exact ⟨[quote], [], rfl, rfl, .close, Text.stops_nil _⟩
  | case3 c hc => cases h
  | case4 c d rest he ih =>
    obtain ⟨m, hm, rfl⟩ := Scan.past_eq_closed h
    obtain ⟨body, after, rfl, rfl, hb, ha⟩ := ih hm
    obtain ⟨he, rfl⟩ := he
    exact ⟨'\\' :: d :: body, after, rfl, rfl, .escaped he hb, ha⟩
  | case5 rest he ih =>
    obtain ⟨m, hm, rfl⟩ := Scan.past_eq_closed h
    obtain ⟨body, after, rfl, rfl, hb, ha⟩ := ih hm
    exact ⟨quote :: quote :: body, after, rfl, rfl, .doubled hb, ha⟩
  | case6 d rest hd he =>
    cases h
    exact ⟨[quote], d :: rest, rfl, rfl, .close, by simpa using hd⟩
  | case7 c d rest he hc ih =>
    obtain ⟨m, hm, rfl⟩ := Scan.past_eq_closed h
    obtain ⟨body, after, hs, rfl, hb, ha⟩ := ih hm
    exact ⟨c :: body, after, by rw [hs]; rfl, rfl, .plain hc he hb, ha⟩

/-- A scan that finds no closing quote has passed the whole text. -/
theorem quoted_exhausted {quote : Char} {escapes : Bool} {t : Text} {n : Nat}
    (h : quoted quote escapes t = .exhausted n) : n = t.length := by
  fun_induction quoted quote escapes t generalizing n with
  | case1 => exact (Scan.exhausted.inj h).symm
  | case2 => cases h
  | case3 c hc => exact (Scan.exhausted.inj h).symm
  | case4 c d rest he ih =>
    obtain ⟨m, hm, rfl⟩ := Scan.past_eq_exhausted h
    rw [ih hm]
    rfl
  | case5 rest he ih =>
    obtain ⟨m, hm, rfl⟩ := Scan.past_eq_exhausted h
    rw [ih hm]
    rfl
  | case6 d rest hd he => cases h
  | case7 c d rest he hc ih =>
    obtain ⟨m, hm, rfl⟩ := Scan.past_eq_exhausted h
    rw [ih hm]
    rfl

theorem blockComment_complete {depth : Nat} {t : Text} (h : CommentTail depth t) (rest : Text) :
    blockComment depth (t ++ rest) = .closed t.length := by
  induction h with
  | close => simp [blockComment]
  | inner _ ih => simp [blockComment, ih, Scan.past]
  | outer _ ih => simp [blockComment, ih, Scan.past]
  | @plain depth c t hi ho ht ih =>
    cases t with
    | nil => cases ht
    | cons d t =>
      have hd : ¬ (c = '/' ∧ d = '*') := fun hd => by simpa [hd.2] using hi hd.1
      have hd' : ¬ (c = '*' ∧ d = '/') := fun hd => by simpa [hd.2] using ho hd.1
      rw [List.cons_append, blockComment, ih]
      · rfl
      · rintro _ rfl he
        exact hd ⟨rfl, (List.cons.inj he).1⟩
      · rintro _ _ rfl he
        exact hd' ⟨rfl, (List.cons.inj he).1⟩
      · rintro _ _ _ rfl he
        exact hd' ⟨rfl, (List.cons.inj he).1⟩

theorem blockComment_sound {depth : Nat} {t : Text} {n : Nat}
    (h : blockComment depth t = .closed n) :
    ∃ body rest, t = body ++ rest ∧ body.length = n ∧ CommentTail depth body := by
  fun_induction blockComment depth t generalizing n with
  | case1 depth rest ih =>
    obtain ⟨m, hm, rfl⟩ := Scan.past_eq_closed h
    obtain ⟨body, after, rfl, rfl, hb⟩ := ih hm
    exact ⟨'/' :: '*' :: body, after, rfl, rfl, .inner hb⟩
  | case2 rest =>
    cases h
    exact ⟨['*', '/'], rest, rfl, rfl, .close⟩
  | case3 depth rest ih =>
    obtain ⟨m, hm, rfl⟩ := Scan.past_eq_closed h
    obtain ⟨body, after, rfl, rfl, hb⟩ := ih hm
    exact ⟨'*' :: '/' :: body, after, rfl, rfl, .outer hb⟩
  | case4 depth c rest hi ho ho' ih =>
    obtain ⟨m, hm, rfl⟩ := Scan.past_eq_closed h
    obtain ⟨body, after, rfl, rfl, hb⟩ := ih hm
    refine ⟨c :: body, after, rfl, rfl, .plain ?_ ?_ hb⟩
    · rintro rfl d hd
      obtain ⟨body, rfl⟩ := List.head?_eq_some_iff.mp hd
      exact beq_false_of_ne fun he => hi _ rfl (by rw [he]; rfl)
    · rintro rfl d hd
      obtain ⟨body, rfl⟩ := List.head?_eq_some_iff.mp hd
      refine beq_false_of_ne fun he => ?_
      cases depth with
      | zero => exact ho _ rfl rfl (by rw [he]; rfl)
      | succ depth => exact ho' _ _ rfl rfl (by rw [he]; rfl)
  | case5 => cases h

/-- A scan that does not find all comments closed has passed the whole text. -/
theorem blockComment_exhausted {depth : Nat} {t : Text} {n : Nat}
    (h : blockComment depth t = .exhausted n) : n = t.length := by
  fun_induction blockComment depth t generalizing n with
  | case1 depth rest ih =>
    obtain ⟨m, hm, rfl⟩ := Scan.past_eq_exhausted h
    rw [ih hm]
    rfl
  | case2 rest => cases h
  | case3 depth rest ih =>
    obtain ⟨m, hm, rfl⟩ := Scan.past_eq_exhausted h
    rw [ih hm]
    rfl
  | case4 depth c rest hi ho ho' ih =>
    obtain ⟨m, hm, rfl⟩ := Scan.past_eq_exhausted h
    rw [ih hm]
    rfl
  | case5 => exact (Scan.exhausted.inj h).symm

theorem TagName.ne_dollar {name : Text} (h : TagName name) : ∀ c ∈ name, c ≠ '$' := by
  cases h with
  | empty => simp
  | named hc ht =>
    intro c hm he
    subst he
    rcases List.mem_cons.mp hm with rfl | hm
    · exact absurd hc (by decide)
    · exact absurd (ht _ hm) (by decide)

theorem dollarTag?_complete {name : Text} (h : TagName name) (rest : Text) :
    dollarTag? (name ++ '$' :: rest) = some (name.length + 1) := by
  cases h with
  | empty => rfl
  | @named c t hc ht =>
    have hd : c ≠ '$' := (TagName.named hc ht).ne_dollar c (by simp)
    have hs : Stops isTagChar ('$' :: rest) := by
      rw [Text.stops_cons]
      decide
    have hw := Text.takeWhile_eq ht hs
    simp [dollarTag?, hd, hc, hw]

theorem dollarTag?_sound {t : Text} {n : Nat} (h : dollarTag? t = some n) :
    ∃ name rest, t = name ++ '$' :: rest ∧ n = name.length + 1 ∧ TagName name := by
  cases t with
  | nil => cases h
  | cons c t =>
    rw [dollarTag?] at h
    split at h
    · rename_i hc
      cases h
      exact ⟨[], t, by rw [hc]; rfl, rfl, .empty⟩
    · split at h
      · rename_i hc
        obtain ⟨body, rest, rfl, hl, hb, hs⟩ := Text.exists_front isTagChar t
        simp only [hl, List.drop_left] at h
        split at h
        · cases h
          exact ⟨c :: body, _, rfl, rfl, .named hc hb⟩
        · cases h
      · cases h

theorem dollarTag?_eq_none_iff {t : Text} : dollarTag? t = none ↔ Untagged t := by
  constructor
  · rintro h name after rfl hn
    rw [dollarTag?_complete hn] at h
    cases h
  · intro h
    cases ht : dollarTag? t with
    | none => rfl
    | some n =>
      obtain ⟨name, rest, rfl, _, hn⟩ := dollarTag?_sound ht
      exact absurd hn (h name rest rfl)

theorem exponent_complete {e rest : Text} (h : Exponent e) (hr : Stops isDigit rest) :
    exponent (e ++ rest) = e.length := by
  cases h with
  | @unsigned e d t he hd ht =>
    have hw := Text.takeWhile_eq ht hr
    simp [exponent, he, hd, hw]
    omega
  | @signed e s d t he hs hd ht =>
    have hw := Text.takeWhile_eq ht hr
    have hn : isDigit s = false := by rcases hs with rfl | rfl <;> decide
    simp [exponent, he, hs, hn, hd, hw]
    omega

theorem Exponent.extend {front : Text} (h : Exponent front) (back : Text) :
    ∃ e rest, front ++ back = e ++ rest ∧ Exponent e ∧ Stops isDigit rest := by
  cases h with
  | @unsigned e d t he hd ht =>
    obtain ⟨body, rest, hs, _, hb, hr⟩ := Text.exists_front isDigit (t ++ back)
    exact ⟨e :: d :: body, rest, by simp [hs], .unsigned he hd hb, hr⟩
  | @signed e s d t he hs hd ht =>
    obtain ⟨body, rest, hw, _, hb, hr⟩ := Text.exists_front isDigit (t ++ back)
    exact ⟨e :: s :: d :: body, rest, by simp [hw], .signed he hs hd hb, hr⟩

theorem exponent_none {t : Text} (h : ∀ front back, t = front ++ back → ¬ Exponent front) :
    exponent t = 0 := by
  unfold exponent
  split
  · rename_i e rest
    split
    · rename_i he
      split
      · rename_i sign digits
        split
        · rename_i hd
          exact absurd (.unsigned he hd (by simp)) (h [e, sign] digits rfl)
        · split
          · rename_i hs
            cases digits with
            | nil => simp at hs
            | cons d digits =>
              have hd : isDigit d = true := by simpa using hs.2
              exact absurd (.signed he hs.1 hd (by simp)) (h [e, sign, d] digits rfl)
          · rfl
      · rfl
    · rfl
  · rfl

theorem exponent_sound (t : Text) :
    (exponent t = 0 ∧ ∀ front back, t = front ++ back → ¬ Exponent front) ∨
      ∃ e rest, t = e ++ rest ∧ exponent t = e.length ∧ Exponent e ∧ Stops isDigit rest := by
  by_cases h : ∃ front back, t = front ++ back ∧ Exponent front
  · obtain ⟨front, back, rfl, hf⟩ := h
    obtain ⟨e, rest, he, hx, hr⟩ := hf.extend back
    exact .inr ⟨e, rest, he, by rw [he, exponent_complete hx hr], hx, hr⟩
  · have hn : ∀ front back, t = front ++ back → ¬ Exponent front :=
      fun front back ht hx => h ⟨front, back, ht, hx⟩
    exact .inl ⟨exponent_none hn, hn⟩

end Lexeme

end Bindery

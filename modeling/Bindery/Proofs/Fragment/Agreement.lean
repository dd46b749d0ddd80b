import Bindery.Proofs.Fragment.Located
import Bindery.Proofs.Fragment.Strokes

namespace Bindery

open Lexeme

/-- Characters that mean something in a list, beside the dollar sign. -/
def listMarks : List Char :=
  '\'' :: '"' :: ',' :: bracketChars

/-- A token in which strokes and tokens agree on the quotes. -/
structure Token.Regular (t : Token) : Prop where
  word : t.kind = .word → ∀ tag, Delimiter tag → ¬ tag <:+: t.text
  string : t.kind = .string → ∀ e body, t.text = e :: '\'' :: body → e ≠ '\'' →
    QuotedTail '\'' false body

/-- A word without a dollar sign is regular, as a string without escapes is. -/
theorem Token.regular_of_kind {t : Token} (hd : t.kind = .word → '$' ∉ t.text)
    (hs : t.kind = .string → t.text.head? = some '\'') : t.Regular := by
  constructor
  · rintro hk tag ⟨name, _, rfl⟩ ht
    exact hd hk (ht.subset (by simp))
  · intro hk e body he hq
    have hh := hs hk
    rw [he] at hh
    exact absurd (Option.some.inj hh) hq

theorem Token.regular_of_no_dollar {t : Token} (hd : '$' ∉ t.text)
    (hs : t.kind = .string → t.text.head? = some '\'') : t.Regular :=
  regular_of_kind (fun _ => hd) hs

/-- No stroke of a run is a comma or a bracket. -/
def Passive (run : List Text) : Prop :=
  ∀ s ∈ run, isBare s ',' = false ∧ ∀ c ∈ bracketChars, isBare s c = false

theorem not_mem_of_any {p : Char → Bool} {marks : List Char} (hp : marks.any p = false) {c : Char}
    (hc : p c = true) : c ∉ marks := by
  intro hm
  rw [List.any_eq_true.mpr ⟨c, hm, hc⟩] at hp
  cases hp

theorem passive_letters {t : Text} (hm : ∀ c ∈ t, c ∉ listMarks) : Passive (t.map ([·])) := by
  intro s hs
  obtain ⟨c, hc, rfl⟩ := List.mem_map.mp hs
  have hb : ∀ e ∈ listMarks, isBare [c] e = false := by
    intro e he
    rw [isBare, beq_eq_false_iff_ne]
    intro h
    cases h
    exact hm c hc he
  exact ⟨hb ',' (by decide), fun e he => hb e (by simp [listMarks, he])⟩

theorem strokes_of_letters {t rest : Text} {strokes : List Text} (hm : ∀ c ∈ t, c ∉ listMarks)
    (hd : ∀ front back, t = front ++ '$' :: back → Untagged (back ++ rest))
    (hx : Strokes rest strokes) :
    ∃ own, Strokes (t ++ rest) (own ++ strokes) ∧ own.flatten = t ∧ Passive own := by
  refine ⟨t.map ([·]), ?_, ?_, passive_letters hm⟩
  · induction t with
    | nil => exact hx
    | cons c t ih =>
      have hc := hm c (by simp)
      have hr := ih (fun d hd => hm d (by simp [hd])) fun front back he =>
        hd (c :: front) back (by rw [he]; rfl)
      refine .stroke (.plain ?_ ?_ ?_) hr
      · rintro rfl
        exact hc (by decide)
      · rintro rfl
        exact hc (by decide)
      · rintro rfl
        exact hd [] t rfl
  · rw [← List.flatMap_def]
    exact List.flatMap_singleton' t

theorem untagged_of_no_dollar {t : Text} (h : '$' ∉ t) (rest : Text) :
    ∀ front back, t = front ++ '$' :: back → Untagged (back ++ rest) := by
  rintro front back rfl
  exact absurd (by simp) h

theorem strokes_of_class {p : Char → Bool} (hp : ('$' :: listMarks).any p = false)
    {t rest : Text} {strokes : List Text} (ht : ∀ c ∈ t, p c = true) (hx : Strokes rest strokes) :
    ∃ own, Strokes (t ++ rest) (own ++ strokes) ∧ own.flatten = t ∧ Passive own := by
  have hm : ∀ c ∈ t, c ∉ '$' :: listMarks := fun c hc => not_mem_of_any hp (ht c hc)
  refine strokes_of_letters ?_ ?_ hx
  · intro c hc hl
    exact hm c hc (by simp [hl])
  · apply untagged_of_no_dollar
    intro hd
    exact hm '$' hd (by simp)

theorem passive_of_length {run : List Text} (h : ∀ s ∈ run, 2 ≤ s.length) : Passive run := by
  have hb : ∀ s ∈ run, ∀ c, isBare s c = false := by
    intro s hs c
    rw [isBare, beq_eq_false_iff_ne]
    rintro rfl
    exact absurd (h _ hs) (by simp)
  exact fun s hs => ⟨hb s hs _, fun c _ => hb s hs c⟩

theorem Passive.append {run rest : List Text} (h : Passive run) (h' : Passive rest) :
    Passive (run ++ rest) := by
  intro s hs
  exact (List.mem_append.mp hs).elim (h s) (h' s)

/-- A quoted text is strokes, one more for each doubled quote; `front` is read of the first one. -/
theorem strokes_of_quoted {quote : Char} (hq : quote = '\'' ∨ quote = '"') {t rest : Text}
    {strokes : List Text} (h : QuotedTail quote false t) (hx : Strokes rest strokes)
    {front : Text} (hf : quote ∉ front) :
    ∃ own, Strokes (quote :: (front ++ t) ++ rest) (own ++ strokes) ∧
      own.flatten = quote :: (front ++ t) ∧ ∀ s ∈ own, 2 ≤ s.length := by
  induction h generalizing front with
  | close =>
    exact ⟨[quote :: (front ++ [quote])], .stroke (.quoted hq hf) hx, by simp, by simp⟩
  | @plain c t hc _ _ ih =>
    have hm : quote ∉ front ++ [c] := by simp [hf, Ne.symm hc]
    simpa using ih hm
  | @doubled t _ ih =>
    have hn : quote ∉ ([] : Text) := by simp
    obtain ⟨own, hs, ho, hl⟩ := ih hn
    refine ⟨(quote :: (front ++ [quote])) :: own, ?_, by simp [ho], by simpa using hl⟩
    have hr : Stroke (quote :: (front ++ [quote])) (quote :: t ++ rest) := .quoted hq hf
    simpa using Strokes.stroke hr hs
  | escaped he => cases he

/-- In a word without the mark of a dollar-quoted text, no dollar sign begins such a text. -/
theorem untagged_of_word {t rest : Text} (ht : ∀ c ∈ t, isNameChar c = true)
    (hr : Text.Stops isNameChar rest) (hd : ∀ tag, Delimiter tag → ¬ tag <:+: t) :
    ∀ front back, t = front ++ '$' :: back → Untagged (back ++ rest) := by
  rintro front back rfl name after he hn
  have hc : ∀ c ∈ name ++ ['$'], isNameChar c = true := by
    intro c hc
    rcases List.mem_append.mp hc with hc | hc
    · exact hn.name_chars c hc
    · rw [List.mem_singleton.mp hc]
      decide
  rw [List.append_cons] at he
  obtain ⟨more, rfl⟩ := hr.prefix_of_append hc he
  exact hd ('$' :: (name ++ ['$'])) ⟨name, hn, rfl⟩ ⟨front, more, by simp⟩

/-- A regular token is whole strokes, none of them a comma or a bracket unless it is a symbol. -/
theorem Spells.strokes {kind : TokenKind} {t rest : Text} {strokes : List Text} {offset : Nat}
    {position : Position} (h : Spells kind t rest) (hk : kind ≠ .comment)
    (hr : Token.Regular ⟨kind, t, offset, position⟩) (hx : Strokes rest strokes) :
    ∃ own, Strokes (t ++ rest) (own ++ strokes) ∧ own.flatten = t ∧
      (kind = .symbol ∧ own = [t] ∨ kind ≠ .symbol ∧ Passive own) := by
  have hblank : ('$' :: listMarks).any Text.isBlank = false := by decide
  have hnumber : ('$' :: listMarks).any isNumberChar = false := by decide
  have hname : listMarks.any isNameChar = false := by decide
  have hempty : ∀ c : Char, c ∉ ([] : Text) := by simp
  cases h with
  | @whitespace c t _ hc ht _ =>
    have hw : ∀ d ∈ c :: t, Text.isBlank d = true := by simpa [hc] using ht
    obtain ⟨own, hs, ho, hp⟩ := strokes_of_class hblank hw hx
    exact ⟨own, hs, ho, .inr ⟨by simp, hp⟩⟩
  | lineComment => exact absurd rfl hk
  | blockComment => exact absurd rfl hk
  | string ht _ =>
    obtain ⟨own, hs, ho, hl⟩ := strokes_of_quoted (.inl rfl) ht hx (hempty _)
    exact ⟨own, hs, ho, .inr ⟨by simp, passive_of_length hl⟩⟩
  | @escapeString e t _ he _ _ =>
    have hm : ∀ d ∈ [e], d ∉ '$' :: listMarks := by
      intro d hd
      rw [List.mem_singleton.mp hd]
      rcases he with rfl | rfl <;> decide
    have hq : e ≠ '\'' := by
      rintro rfl
      exact hm '\'' (by simp) (by decide)
    obtain ⟨own, hs, ho, hl⟩ :=
      strokes_of_quoted (.inl rfl) (hr.string rfl e t rfl hq) hx (hempty _)
    have hd := untagged_of_no_dollar (fun hd => hm '$' hd (by simp)) ('\'' :: ([] ++ t) ++ rest)
    obtain ⟨first, hf, he, hp⟩ := strokes_of_letters (fun d hd hl => hm d hd (by simp [hl])) hd hs
    refine ⟨first ++ own, by simpa using hf, by simp [he, ho], .inr ⟨by simp, ?_⟩⟩
    exact hp.append (passive_of_length hl)
  | quotedIdentifier ht _ =>
    obtain ⟨own, hs, ho, hl⟩ := strokes_of_quoted (.inr rfl) ht hx (hempty _)
    exact ⟨own, hs, ho, .inr ⟨by simp, passive_of_length hl⟩⟩
  | @dollarString tag body _ htag hf =>
    refine ⟨[tag ++ body ++ tag], .stroke (.dollar (.dollarString htag hf)) hx, by simp, ?_⟩
    obtain ⟨name, _, rfl⟩ := htag
    refine .inr ⟨by simp, passive_of_length ?_⟩
    simp
    omega
  | number hs ht he =>
    obtain ⟨own, hs, ho, hp⟩ := strokes_of_class hnumber (Spells.number hs ht he).number_chars hx
    exact ⟨own, hs, ho, .inr ⟨by simp, hp⟩⟩
  | exponential hs ht he hd =>
    obtain ⟨own, hs, ho, hp⟩ :=
      strokes_of_class hnumber (Spells.exponential hs ht he hd).number_chars hx
    exact ⟨own, hs, ho, .inr ⟨by simp, hp⟩⟩
  | @word c t _ hc ht hs _ =>
    have hw : ∀ d ∈ c :: t, isNameChar d = true := by simpa [isNameChar_of_start hc] using ht
    obtain ⟨own, hs, ho, hp⟩ := strokes_of_letters
      (fun d hd => not_mem_of_any hname (hw d hd)) (untagged_of_word hw hs (hr.word rfl)) hx
    exact ⟨own, hs, ho, .inr ⟨by simp, hp⟩⟩
  | @symbol c _ hc =>
    refine ⟨[[c]], .stroke (.plain hc.not_quote.1 hc.not_quote.2 hc.no_tag) hx, rfl, ?_⟩
    exact .inl ⟨rfl, rfl⟩

theorem attach_attach (s t : Text) (pieces : List Text) :
    Fragment.attach s (Fragment.attach t pieces) = Fragment.attach (s ++ t) pieces := by
  cases pieces <;> simp [Fragment.attach]

/-- Strokes that are no commas and no brackets stay with the piece behind them. -/
theorem Passive.cutRun_append {own : List Text} (h : Passive own) (hn : own ≠ []) (d : Nesting)
    (strokes : List Text) :
    cutRun isBare id d (own ++ strokes) =
      (cutRun isBare id d strokes).map (Fragment.attach own.flatten) := by
  induction own with
  | nil => exact absurd rfl hn
  | cons s own ih =>
    obtain ⟨hc, hb⟩ := h s (by simp)
    rw [List.cons_append, cutRun_passive hb hc]
    by_cases ho : own = []
    · subst ho
      simp
    · rw [ih (fun u hu => h u (by simp [hu])) ho, Option.map_map]
      congr 1
      funext pieces
      simp [attach_attach]

/-- Counting brackets in regular tokens and counting them in strokes come to the same pieces. -/
theorem Lexes.exists_strokes {text : Text} {offset : Nat} {position : Position}
    {tokens : List Token} (h : Lexes [] offset position text tokens)
    (hc : ∀ t ∈ tokens, t.kind ≠ .comment) (hr : ∀ t ∈ tokens, t.Regular) :
    ∃ strokes, Strokes text strokes ∧
      ∀ d, cutRun isBare id d strokes = cutRun Token.isSymbol Token.text d tokens := by
  induction h with
  | done => exact ⟨[], .done, fun d => rfl⟩
  | @token offset position kind t rest tokens hs _ ih =>
    obtain ⟨strokes, hx, he⟩ := ih (fun u hu => hc u (by simp [hu])) fun u hu => hr u (by simp [hu])
    obtain ⟨own, ho, hf, hk⟩ := hs.strokes (hc _ List.mem_cons_self) (hr _ List.mem_cons_self) hx
    refine ⟨own ++ strokes, ho, ?_⟩
    intro d
    rcases hk with ⟨rfl, rfl⟩ | ⟨hk, hp⟩
    · cases hs with
      | @symbol c _ _ =>
        have hi : isBare [c] = Token.isSymbol ⟨.symbol, [c], offset, position⟩ := by
          funext e
          simp [isBare, Token.isSymbol]
        have ht : id [c] = Token.text ⟨.symbol, [c], offset, position⟩ := rfl
        exact cutRun_cons_congr hi ht he d
    · have hn : own ≠ [] := by
        rintro rfl
        obtain ⟨c, body, rfl⟩ := hs.exists_cons
        cases hf
      have hb : ∀ c, Token.isSymbol ⟨kind, t, offset, position⟩ c = false := by
        intro c
        simp [Token.isSymbol, hk]
      rw [hp.cutRun_append hn, cutRun_passive (fun c _ => hb c) (hb ','), hf, he]

/-- The strokes of a list have the top-level pieces of its tokens, and their brackets match too. -/
def CutsAlike (list : Text) (tokens : List Token) : Prop :=
  ∃ strokes, Strokes list strokes ∧ BracketsMatch isBare strokes ∧
    (topRuns isBare [] strokes).map List.flatten =
      (topRuns Token.isSymbol [] tokens).map (List.flatMap Token.text)

theorem cutsAlike_of_regular {list : Text} {origin : Position} {tokens : List Token}
    (h : Lexes [] 0 origin list tokens) (hc : ∀ t ∈ tokens, t.kind ≠ .comment)
    (hb : BracketsMatch Token.isSymbol tokens) (hr : ∀ t ∈ tokens, t.Regular) :
    CutsAlike list tokens := by
  obtain ⟨strokes, hx, he⟩ := h.exists_strokes hc hr
  have ht := (cutRun_top_iff Token.isSymbol_unambiguous Token.text).mpr ⟨hb, rfl⟩
  rw [← he, cutRun_strokes_iff] at ht
  exact ⟨strokes, hx, ht.1, ht.2.symm⟩

/-- The fragments that the tokens give are split off exactly if the strokes cut alike. -/
theorem splitTopLevel_iff_cutsAlike {list : Text} {origin : Position} {tokens : List Token}
    (h : Lexes [] 0 origin list tokens) (hc : ∀ t ∈ tokens, t.kind ≠ .comment) :
    splitTopLevel list origin = .ok (topFragments tokens) ↔ CutsAlike list tokens := by
  have hj : Joined Token.isSymbol (topRuns Token.isSymbol [] tokens) tokens := topRuns_joined _ _
  rw [splitTopLevel_eq_ok_iff, topFragments, ← Fragment.ofPieces_runs hj h hc]
  constructor
  · rintro ⟨strokes, hx, hb, he⟩
    have hs : Joined isBare (topRuns isBare [] strokes) strokes := topRuns_joined _ _
    refine ⟨strokes, hx, hb, (Fragment.ofPieces_injective ?_ ?_ ?_ he).symm⟩
    · simpa using topRuns_ne_nil [] tokens
    · simpa using topRuns_ne_nil [] strokes
    · have ht : tokens.flatMap Token.text = _ :=
        hj.text_eq fun t ht hcomma => (h.proper t ht).text_of_isSymbol hcomma
      have hu : strokes.flatMap id = _ :=
        hs.text_eq fun s _ hcomma => by simpa [isBare] using hcomma
      rw [flatMap_id_eq_flatten, ← hx.text_eq, h.text_eq, List.append_nil] at hu
      rw [← ht, hu]
  · rintro ⟨strokes, hx, hb, he⟩
    exact ⟨strokes, hx, hb, by rw [he]⟩

/--
A list without comments whose brackets match is split at the top-level commas of its tokens exactly
if its strokes cut it alike. They do if every token is regular: no word holds the mark of a
dollar-quoted text, and no string an escaped quote.
-/
theorem splitTopLevel_topFragments {list : Text} {origin : Position} {tokens : List Token}
    (h : tokenize list origin = .ok tokens) (hc : ∀ t ∈ tokens, t.kind ≠ .comment)
    (hb : BracketsMatch Token.isSymbol tokens) :
    (splitTopLevel list origin = .ok (topFragments tokens) ↔ CutsAlike list tokens) ∧
      ((∀ t ∈ tokens, t.Regular) →
        splitTopLevel list origin = .ok (topFragments tokens)) := by
  have hx := tokenize_eq_ok_iff.mp h
  have hi := splitTopLevel_iff_cutsAlike hx hc
  exact ⟨hi, fun hr => hi.mpr (cutsAlike_of_regular hx hc hb hr)⟩

theorem splitTopLevel_topFragments_nested :
    ∃ tokens, tokenize "a,('b,'),".toList .start = .ok tokens ∧
      (∀ t ∈ tokens, t.kind ≠ .comment) ∧ BracketsMatch Token.isSymbol tokens ∧
      (∀ t ∈ tokens, t.Regular) ∧
      splitTopLevel "a,('b,'),".toList .start = .ok (topFragments tokens) ∧
      topFragments tokens = [⟨['a'], ⟨1, 1⟩⟩, ⟨"('b,')".toList, ⟨1, 3⟩⟩] := by
  obtain ⟨tokens, h, hc, hb, hr, hf⟩ :
      ∃ tokens, tokenize "a,('b,'),".toList .start = .ok tokens ∧
        (∀ t ∈ tokens, t.kind ≠ .comment) ∧ ({} : Nesting).after? Token.isSymbol tokens = some {} ∧
        (∀ t ∈ tokens, '$' ∉ t.text ∧ (t.kind = .string → t.text.head? = some '\'')) ∧
        topFragments tokens = [⟨['a'], ⟨1, 1⟩⟩, ⟨"('b,')".toList, ⟨1, 3⟩⟩] :=
    ⟨[⟨.word, ['a'], 0, ⟨1, 1⟩⟩, ⟨.symbol, [','], 1, ⟨1, 2⟩⟩, ⟨.symbol, ['('], 2, ⟨1, 3⟩⟩,
        ⟨.string, "'b,'".toList, 3, ⟨1, 4⟩⟩, ⟨.symbol, [')'], 7, ⟨1, 8⟩⟩,
        ⟨.symbol, [','], 8, ⟨1, 9⟩⟩], by decide +kernel, by decide⟩
  have hb := (Nesting.bracketsMatch_iff Token.isSymbol_unambiguous).mpr hb
  have hr : ∀ t ∈ tokens, t.Regular :=
    fun t ht => Token.regular_of_no_dollar (hr t ht).1 (hr t ht).2
  exact ⟨tokens, h, hc, hb, hr, (splitTopLevel_topFragments h hc hb).2 hr, hf⟩

/-- A list meets all that the tokens can be asked for and is still not split as they say. -/
def SplitsOtherwise (list : Text) : Prop :=
  ∃ tokens, tokenize list .start = .ok tokens ∧ (∀ t ∈ tokens, t.kind ≠ .comment) ∧
    BracketsMatch Token.isSymbol tokens ∧ splitTopLevel list .start ≠ .ok (topFragments tokens)

/-- A word with the mark of a dollar-quoted text and a string with an escaped quote are refused. -/
theorem splitTopLevel_ne_topFragments :
    SplitsOtherwise ['a', '$', '$'] ∧ SplitsOtherwise ['E', '\'', '\\', '\'', '\''] := by
  have hb {tokens : List Token} (h : ({} : Nesting).after? Token.isSymbol tokens = some {}) :=
    (Nesting.bracketsMatch_iff Token.isSymbol_unambiguous).mpr h
  have hw : splitTopLevel ['a', '$', '$'] .start =
      .error (.unterminated .dollarString ⟨1, 2⟩ ['a', '$', '$']) := by
    decide +kernel
  have hs : splitTopLevel ['E', '\'', '\\', '\'', '\''] .start =
      .error (.unterminated .stringLiteral ⟨1, 5⟩ ['E', '\'', '\\', '\'', '\'']) := by
    decide +kernel
  constructor
  · refine ⟨[⟨.word, ['a', '$', '$'], 0, ⟨1, 1⟩⟩], by decide +kernel, by decide, hb (by decide), ?_⟩
    rw [hw]
    simp
  · refine ⟨[⟨.string, ['E', '\'', '\\', '\'', '\''], 0, ⟨1, 1⟩⟩], by decide +kernel, by decide,
      hb (by decide), ?_⟩
    rw [hs]
    simp

end Bindery

import Bindery.Proofs.Text.Cut
import Bindery.Proofs.Token.Lexes
import Bindery.Token.Run

namespace Bindery

open Text (Stops)
open Lexeme

def Text.inQuotes (quote : Char) (t : Text) : Text :=
  quote :: (Text.replaceChar quote [quote, quote] t ++ [quote])

theorem quotedTail_doubled (quote : Char) (t : Text) :
    QuotedTail quote false (Text.replaceChar quote [quote, quote] t ++ [quote]) := by
  induction t with
  | nil => exact .close
  | cons c t ih =>
    rw [Text.replaceChar_cons]
    split
    · exact .doubled ih
    · rename_i hc
      exact .plain hc (by simp) ih

theorem undouble_cons_of_ne {quote c : Char} (hc : c ≠ quote) (t : Text) :
    unquote.undouble quote (c :: t) = c :: unquote.undouble quote t := by
  cases t with
  | nil => rfl
  | cons d t => rw [unquote.undouble, if_neg (by simp [hc])]

theorem undouble_doubled (quote : Char) (t : Text) :
    unquote.undouble quote (Text.replaceChar quote [quote, quote] t) = t := by
  induction t with
  | nil => rfl
  | cons c t ih =>
    rw [Text.replaceChar_cons]
    split
    · rename_i hc
      simp [unquote.undouble, ih, hc]
    · rename_i hc
      rw [List.singleton_append, undouble_cons_of_ne hc, ih]

theorem unquote_inQuotes (quote : Char) (t : Text) : unquote quote (Text.inQuotes quote t) = t := by
  simp [unquote, Text.inQuotes, Text.dropFront?, Text.dropBack?, undouble_doubled]

/-- A token to be written. -/
structure Piece where
  kind : TokenKind
  text : Text

namespace Piece

/-- The text of pieces written one behind the other. -/
def print (ps : List Piece) : Text :=
  ps.flatMap text

@[simp] theorem print_nil : print [] = [] := rfl

@[simp] theorem print_cons (p : Piece) (ps : List Piece) : print (p :: ps) = p.text ++ print ps :=
  List.flatMap_cons

@[simp] theorem print_append (ps qs : List Piece) : print (ps ++ qs) = print ps ++ print qs :=
  List.flatMap_append

theorem print_intercalate (sep : List Piece) (items : List (List Piece)) :
    print (sep.intercalate items) = Text.join (print sep) (items.map print) := by
  induction items with
  | nil => rfl
  | cons x xs ih =>
    cases xs with
    | nil => simp [List.intercalate_singleton, Text.join]
    | cons y ys =>
      rw [List.intercalate_cons_cons, print_append, print_append, ih]
      simp only [Text.join, List.map_cons, List.intercalate_cons_cons]

theorem mem_intercalate {sep : List Piece} {items : List (List Piece)} {p : Piece}
    (h : p ∈ sep.intercalate items) : p ∈ sep ∨ ∃ x ∈ items, p ∈ x := by
  induction items with
  | nil => cases h
  | cons x xs ih =>
    cases xs with
    | nil =>
      rw [List.intercalate_singleton] at h
      exact .inr ⟨x, by simp, h⟩
    | cons y ys =>
      rw [List.intercalate_cons_cons, List.append_assoc, List.mem_append, List.mem_append] at h
      rcases h with h | h | h
      · exact .inr ⟨x, by simp, h⟩
      · exact .inl h
      · rcases ih h with h | ⟨z, hz, h⟩
        · exact .inl h
        · exact .inr ⟨z, List.mem_cons_of_mem x hz, h⟩

/-- The tokens of pieces that are written from byte `offset` and place `position` on. -/
def place (offset : Nat) (position : Position) : List Piece → List Token
  | [] => []
  | p :: ps => ⟨p.kind, p.text, offset, position⟩ ::
      place (offset + p.text.byteSize) (position.advance p.text) ps

theorem place_append (offset : Nat) (position : Position) (ps qs : List Piece) :
    place offset position (ps ++ qs) = place offset position ps ++
      place (offset + (print ps).byteSize) (position.advance (print ps)) qs := by
  induction ps generalizing offset position with
  | nil => rfl
  | cons p ps ih =>
    rw [List.cons_append, place, ih, place, print_cons, Text.byteSize_append,
      Position.advance_append, Nat.add_assoc, List.cons_append]

theorem exists_piece_of_mem_place {offset : Nat} {position : Position} {ps : List Piece}
    {t : Token} (h : t ∈ place offset position ps) :
    ∃ p ∈ ps, t.kind = p.kind ∧ t.text = p.text := by
  induction ps generalizing offset position with
  | nil => cases h
  | cons p ps ih =>
    rcases List.mem_cons.mp h with rfl | h
    · exact ⟨p, by simp, rfl, rfl⟩
    · obtain ⟨q, hq, he⟩ := ih h
      exact ⟨q, by simp [hq], he⟩

/-- Every piece is spelled before what follows it; `tail` follows the last one. -/
def Spelled (tail : Text) : List Piece → Prop
  | [] => True
  | p :: ps => Spells p.kind p.text (print ps ++ tail) ∧ Spelled tail ps

theorem spelled_append {tail : Text} {ps qs : List Piece} :
    Spelled tail (ps ++ qs) ↔ Spelled (print qs ++ tail) ps ∧ Spelled tail qs := by
  induction ps with
  | nil => simp [Spelled]
  | cons p ps ih =>
    simp only [List.cons_append, Spelled, ih, print_append, List.append_assoc, and_assoc]

theorem Spelled.lexes {tail : Text} {ps : List Piece} (h : Spelled tail ps) (offset : Nat)
    (position : Position) :
    Lexes tail offset position (print ps ++ tail) (place offset position ps) := by
  induction ps generalizing offset position with
  | nil => exact .done
  | cons p ps ih =>
    rw [print_cons, List.append_assoc]
    exact .token h.1 (ih h.2 _ _)

theorem spelled_of_lexes {tail : Text} {ps : List Piece} (offset : Nat) (position : Position)
    (h : Lexes tail offset position (print ps ++ tail) (place offset position ps)) :
    Spelled tail ps := by
  induction ps generalizing offset position with
  | nil => trivial
  | cons p ps ih =>
    rw [place] at h
    generalize ht : print (p :: ps) ++ tail = text at h
    cases h with
    | token hs hx =>
      rw [print_cons, List.append_assoc] at ht
      obtain rfl := List.append_cancel_left ht
      exact ⟨hs, ih _ _ hx⟩

/-- Items with something between any two, if each item may stand before a text of the class `P`, as
the separators are, and a separator before a text of the class `Q`, as the items are. -/
theorem spelled_intercalate {P Q : Text → Prop} {sep : List Piece} {items : List (List Piece)}
    {tail : Text} (hi : ∀ x ∈ items, ∀ rest, P rest → Spelled rest x)
    (hs : ∀ rest, Q rest → Spelled rest sep) (hq : ∀ x ∈ items, ∀ rest, Q (print x ++ rest))
    (hp : ∀ rest, P (print sep ++ rest)) (ht : P tail) : Spelled tail (sep.intercalate items) := by
  induction items with
  | nil => trivial
  | cons x xs ih =>
    have ih := ih (fun y hy => hi y (by simp [hy])) fun y hy => hq y (by simp [hy])
    cases xs with
    | nil =>
      rw [List.intercalate_singleton]
      exact hi x (by simp) tail ht
    | cons y ys =>
      have hy : ∃ rest, print (sep.intercalate (y :: ys)) = print y ++ rest := by
        cases ys with
        | nil => exact ⟨[], by simp [List.intercalate_singleton]⟩
        | cons z zs => exact ⟨_, by rw [List.intercalate_cons_cons, print_append, print_append,
            List.append_assoc]⟩
      obtain ⟨rest, hr⟩ := hy
      rw [List.intercalate_cons_cons, spelled_append, spelled_append, hr, List.append_assoc]
      exact ⟨⟨hi x (by simp) _ (hp _), hs _ (hq y (by simp) _)⟩, ih⟩

def isCode (p : Piece) : Bool :=
  p.kind != .whitespace && p.kind != .comment

/-- The tokens of the pieces that are no white space and no comments. -/
def placeCode (offset : Nat) (position : Position) (ps : List Piece) : List Token :=
  (place offset position ps).filter fun t => !t.isTrivia

theorem isTrivia_eq (p : Piece) (offset : Nat) (position : Position) :
    Token.isTrivia ⟨p.kind, p.text, offset, position⟩ = !p.isCode := by
  simp [Token.isTrivia, isCode, bne]

theorem placeCode_append (offset : Nat) (position : Position) (ps qs : List Piece) :
    placeCode offset position (ps ++ qs) = placeCode offset position ps ++
      placeCode (offset + (print ps).byteSize) (position.advance (print ps)) qs := by
  rw [placeCode, place_append, List.filter_append, placeCode, placeCode]

theorem placeCode_cons_code {p : Piece} (h : p.isCode = true) (offset : Nat) (position : Position)
    (ps : List Piece) :
    placeCode offset position (p :: ps) = ⟨p.kind, p.text, offset, position⟩ ::
      placeCode (offset + p.text.byteSize) (position.advance p.text) ps := by
  rw [placeCode, place, List.filter_cons_of_pos (by simp [isTrivia_eq, h]), placeCode]

theorem placeCode_cons_trivia {p : Piece} (h : p.isCode = false) (offset : Nat)
    (position : Position) (ps : List Piece) :
    placeCode offset position (p :: ps) =
      placeCode (offset + p.text.byteSize) (position.advance p.text) ps := by
  rw [placeCode, place, List.filter_cons_of_neg (by simp [isTrivia_eq, h]), placeCode]

/-- The pieces begin and end with pieces that are no white space and no comments. -/
structure Bounded (ps : List Piece) : Prop where
  first : ∃ p qs, ps = p :: qs ∧ p.isCode = true
  last : ∃ qs p, ps = qs ++ [p] ∧ p.isCode = true

theorem bounded_singleton {p : Piece} (h : p.isCode = true) : Bounded [p] :=
  ⟨⟨p, [], rfl, h⟩, ⟨[], p, rfl, h⟩⟩

theorem Bounded.append {ps qs : List Piece} (hp : Bounded ps) (hq : Bounded qs) (sep : List Piece) :
    Bounded (ps ++ sep ++ qs) := by
  obtain ⟨p, ps', rfl, hc⟩ := hp.first
  obtain ⟨qs', q, rfl, hd⟩ := hq.last
  exact ⟨⟨p, _, rfl, hc⟩, ⟨p :: ps' ++ sep ++ qs', q, by simp, hd⟩⟩

theorem bounded_intercalate {sep : List Piece} {items : List (List Piece)} (hn : items ≠ [])
    (h : ∀ x ∈ items, Bounded x) : Bounded (sep.intercalate items) := by
  induction items with
  | nil => exact absurd rfl hn
  | cons x xs ih =>
    have hx := h x (by simp)
    cases xs with
    | nil =>
      rw [List.intercalate_singleton]
      exact hx
    | cons y ys =>
      rw [List.intercalate_cons_cons]
      exact hx.append (ih (by simp) fun z hz => h z (List.mem_cons_of_mem x hz)) sep

theorem Bounded.covered_eq {ps : List Piece} (h : Bounded ps) (before after : Text)
    (position : Position) :
    Run.covered (before ++ (print ps ++ after)) (placeCode before.byteSize position ps) =
      print ps := by
  obtain ⟨p, qs, hf, hp⟩ := h.first
  obtain ⟨rs, q, hl, hq⟩ := h.last
  have hh : (placeCode before.byteSize position ps).head?.map Token.offset =
      some before.byteSize := by
    rw [hf, placeCode_cons_code hp]
    rfl
  have hg : (placeCode before.byteSize position ps).getLast?.map Token.stop =
      some (before.byteSize + (print ps).byteSize) := by
    rw [hl, placeCode_append, placeCode_cons_code hq, List.getLast?_append]
    simp [placeCode, place, Token.stop, Text.byteSize_append, Nat.add_assoc]
  obtain ⟨first, hfirst, hoffset⟩ := Option.map_eq_some_iff.mp hh
  obtain ⟨last, hlast, hstop⟩ := Option.map_eq_some_iff.mp hg
  simp only [Run.covered, hfirst, hlast, hoffset, hstop, Text.between_append]

/-- Pieces that are spelled one behind the other have white space at neither end. -/
theorem Bounded.tight {ps : List Piece} (h : Bounded ps) {tail : Text} (hs : Spelled tail ps) :
    (print ps).Tight := by
  obtain ⟨p, qs, hf, hp⟩ := h.first
  obtain ⟨rs, q, hl, hq⟩ := h.last
  simp only [isCode, Bool.and_eq_true, bne_iff_ne] at hp hq
  constructor
  · rw [hf] at hs ⊢
    obtain ⟨c, body, ht, hc⟩ := hs.1.exists_first hp.1
    exact ⟨c, body ++ print qs, by rw [print_cons, ht]; rfl, hc⟩
  · rw [hl, spelled_append] at hs
    obtain ⟨front, c, ht, hc⟩ := hs.2.1.exists_last hq.1 hq.2
    exact ⟨print rs ++ front, c, by simp [hl, ht], hc⟩

end Piece

theorem tokenize_print {ps : List Piece} (h : Piece.Spelled [] ps) (origin : Position) :
    tokenize (Piece.print ps) origin = .ok (Piece.place 0 origin ps) := by
  rw [tokenize_eq_ok_iff]
  simpa using h.lexes 0 origin

theorem spelled_of_tokenize {ps : List Piece} (origin : Position)
    (h : tokenize (Piece.print ps) origin = .ok (Piece.place 0 origin ps)) :
    Piece.Spelled [] ps := by
  apply Piece.spelled_of_lexes 0 origin
  rw [List.append_nil]
  exact tokenize_eq_ok_iff.mp h

theorem significantTokens_print {ps : List Piece} (h : Piece.Spelled [] ps) (origin : Position) :
    significantTokens (Piece.print ps) origin = .ok (Piece.placeCode 0 origin ps) := by
  rw [significantTokens, tokenize_print h]
  rfl

/-- The characters that end a word, a number or a quoted text. -/
def breakChars : List Char :=
  [' ', ',', '(', ')', '[', ']']

/-- The text ends, or begins with a character that ends a word. -/
def Breaks (rest : Text) : Prop :=
  ∀ c, rest.head? = some c → c ∈ breakChars

theorem breaks_nil : Breaks [] := by
  intro c hc
  cases hc

theorem breaks_cons {c : Char} (hc : c ∈ breakChars) (rest : Text) : Breaks (c :: rest) := by
  intro d hd
  cases hd
  exact hc

theorem Breaks.stops {rest : Text} (h : Breaks rest) {p : Char → Bool}
    (hp : breakChars.all (!p ·) = true) : Stops p rest := by
  intro c hc
  simpa using List.all_eq_true.mp hp c (h c hc)

namespace Piece

def symbol (c : Char) : Piece :=
  ⟨.symbol, [c]⟩

def space : Piece :=
  ⟨.whitespace, [' ']⟩

def literal (t : Text) : Piece :=
  ⟨.string, Text.inQuotes '\'' t⟩

def quotedName (t : Text) : Piece :=
  ⟨.quotedIdentifier, Text.inQuotes '"' t⟩

end Piece

/-- An unquoted word without dollar signs. -/
def IsWord (w : Text) : Prop :=
  ∃ c t, w = c :: t ∧ isNameStart c = true ∧ ∀ d ∈ t, isTagChar d = true

def IsDigits (w : Text) : Prop :=
  ∃ c t, w = c :: t ∧ isDigit c = true ∧ ∀ d ∈ t, isDigit d = true

theorem isWord_of_all {c : Char} {t : Text} (hc : isNameStart c = true)
    (ht : t.all isTagChar = true) : IsWord (c :: t) :=
  ⟨c, t, rfl, hc, List.all_eq_true.mp ht⟩

theorem isDigits_of_all {c : Char} {t : Text} (hc : isDigit c = true)
    (ht : t.all isDigit = true) : IsDigits (c :: t) :=
  ⟨c, t, rfl, hc, List.all_eq_true.mp ht⟩

theorem IsWord.nameChars {w : Text} (h : IsWord w) : ∀ c ∈ w, isTagChar c = true := by
  obtain ⟨c, t, rfl, hc, ht⟩ := h
  intro d hd
  rcases List.mem_cons.mp hd with rfl | hd
  · simp only [isNameStart, Bool.or_eq_true] at hc
    rcases hc with hc | hc <;> simp [isTagChar, Text.isAlphanumeric, hc]
  · exact ht d hd

theorem IsWord.ne_nil {w : Text} (h : IsWord w) : w ≠ [] := by
  obtain ⟨c, t, rfl, -⟩ := h
  simp

theorem IsWord.no_dollar {w : Text} (h : IsWord w) : '$' ∉ w := by
  intro hd
  exact absurd (h.nameChars '$' hd) (by decide)

theorem IsWord.not_blank {w : Text} (h : IsWord w) : ∀ c ∈ w, Text.isBlank c = false := by
  intro c hc
  exact isNameChar_not_blank (by simp [isNameChar, h.nameChars c hc])

theorem IsDigits.ne_nil {w : Text} (h : IsDigits w) : w ≠ [] := by
  obtain ⟨c, t, rfl, -⟩ := h
  simp

theorem IsDigits.not_blank {w : Text} (h : IsDigits w) : ∀ c ∈ w, Text.isBlank c = false := by
  obtain ⟨c, t, rfl, hc, ht⟩ := h
  intro d hd
  rcases List.mem_cons.mp hd with rfl | hd
  · exact isDigit_not_blank hc
  · exact isDigit_not_blank (ht d hd)

theorem stops_blank_append {w : Text} (hn : w ≠ []) (hw : ∀ c ∈ w, Text.isBlank c = false)
    (rest : Text) : Stops Text.isBlank (w ++ rest) := by
  obtain ⟨c, t, rfl⟩ := List.exists_cons_of_ne_nil hn
  exact Text.stops_cons.mpr (hw c (by simp))

theorem IsWord.spells {w rest : Text} (hw : IsWord w) (hr : Breaks rest) : Spells .word w rest := by
  obtain ⟨c, t, rfl, hc, ht⟩ := hw
  refine .word hc (fun d hd => by simp [isNameChar, ht d hd]) (hr.stops (by decide)) ?_
  intro _
  cases t with
  | nil => exact hr.stops (by decide)
  | cons d t =>
    rw [List.cons_append, Text.stops_cons, beq_eq_false_iff_ne]
    rintro rfl
    exact absurd (ht '\'' (by simp)) (by decide)

theorem IsDigits.spells {w rest : Text} (hw : IsDigits w) (hr : Breaks rest) :
    Spells .number w rest := by
  obtain ⟨c, t, rfl, hc, ht⟩ := hw
  refine .number (.inl hc) (fun d hd => by simp [isMantissaChar, ht d hd])
    ⟨hr.stops (by decide), ?_⟩
  rintro front back rfl he
  have hb (e : Char) (he : e = 'e' ∨ e = 'E') (t : Text) : ¬ Breaks (e :: t) := by
    intro h
    have hm := h e rfl
    rcases he with rfl | rfl <;> exact absurd hm (by decide)
  cases he with
  | unsigned he _ _ => exact hb _ he _ hr
  | signed he _ _ _ => exact hb _ he _ hr

theorem spells_literal {rest : Text} (t : Text) (hr : Breaks rest) :
    Spells .string (Text.inQuotes '\'' t) rest :=
  .string (quotedTail_doubled '\'' t) (hr.stops (by decide))

theorem spells_quotedName {rest : Text} (t : Text) (hr : Breaks rest) :
    Spells .quotedIdentifier (Text.inQuotes '"' t) rest :=
  .quotedIdentifier (quotedTail_doubled '"' t) (hr.stops (by decide))

theorem spells_space {rest : Text} (hr : Stops Text.isBlank rest) : Spells .whitespace [' '] rest :=
  .whitespace (by decide) (by simp) hr

/-- The marks that are tokens by themselves, whatever follows. -/
def markChars : List Char :=
  [',', ';', '(', ')', '[', ']']

theorem spells_mark {c : Char} (hc : c ∈ markChars) (rest : Text) : Spells .symbol [c] rest := by
  have hs : markChars.all (fun c => decide (Text.isBlank c = false ∧ (c ≠ '\'' ∧ c ≠ '"') ∧
      isNameStart c = false ∧ c ≠ '-' ∧ c ≠ '/' ∧ c ≠ '$' ∧ c ≠ '.' ∧
      isDigit c = false)) = true := by decide
  obtain ⟨hb, hq, hn, hm, hl, hd, hp, hi⟩ := of_decide_eq_true (List.all_eq_true.mp hs c hc)
  refine .symbol ⟨hb, hq, hn, fun h => absurd h hm, fun h => absurd h hl, fun h => absurd h hd, ?_⟩
  rintro (h | ⟨h, _⟩)
  · exact absurd h (by simp [hi])
  · exact hp h

end Bindery

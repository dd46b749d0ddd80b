import Bindery.Proofs.Fragment.Printing

namespace Bindery

open Text (Stops)
open Lexeme

/-- A number in the modifier of a type. -/
structure Digits where
  text : Text
  isDigits : IsDigits text

/-- Numbers in parentheses behind a type, with or without a space after each comma. -/
structure TypeModifier where
  numbers : List Digits
  spaced : Bool

/-- A type: words, a modifier and array brackets. -/
structure TypePhrase where
  first : Text
  more : List Text
  isWord : ∀ w ∈ first :: more, IsWord w
  modifier : Option TypeModifier
  dimensions : Nat

def TypeModifier.separator (m : TypeModifier) : Text :=
  if m.spaced then ", " else ","

def TypeModifier.print (m : TypeModifier) : Text :=
  "(" ++ (Text.join m.separator (m.numbers.map Digits.text) ++ ")")

def TypePhrase.print (t : TypePhrase) : Text :=
  Text.join " " (t.first :: t.more) ++
    ((t.modifier.map TypeModifier.print).getD [] ++
      (List.replicate t.dimensions ("[]" : Text)).flatten)

namespace TypeModifier

open Piece (symbol space)

variable (m : TypeModifier)

def pieces : List Piece :=
  symbol '(' :: ((symbol ',' :: if m.spaced then [space] else []).intercalate
    (m.numbers.map fun n => [⟨.number, n.text⟩]) ++ [symbol ')'])

theorem print_pieces : Piece.print m.pieces = m.print := by
  have hs : Piece.print (symbol ',' :: if m.spaced then [space] else []) = m.separator := by
    unfold separator
    split <;> rfl
  have hn : (m.numbers.map fun n => [⟨.number, n.text⟩]).map Piece.print =
      m.numbers.map Digits.text := by
    simp [Function.comp_def]
  rw [pieces, Piece.print_cons, Piece.print_append, Piece.print_intercalate, hs, hn]
  rfl

theorem spelled_pieces (rest : Text) : Piece.Spelled rest m.pieces := by
  refine ⟨spells_mark (by decide) _, ?_⟩
  rw [Piece.spelled_append]
  refine ⟨?_, spells_mark (by decide) _, trivial⟩
  apply Piece.spelled_intercalate (P := Breaks) (Q := Stops Text.isBlank)
  · intro x hx rest hr
    obtain ⟨n, -, rfl⟩ := List.mem_map.mp hx
    exact ⟨n.isDigits.spells hr, trivial⟩
  · intro rest hr
    refine ⟨spells_mark (by decide) _, ?_⟩
    split
    · exact ⟨spells_space hr, trivial⟩
    · trivial
  · intro x hx rest
    obtain ⟨n, -, rfl⟩ := List.mem_map.mp hx
    rw [Piece.print_cons, List.append_assoc]
    exact stops_blank_append n.isDigits.ne_nil n.isDigits.not_blank _
  · intro rest
    exact breaks_cons (by decide) _
  · exact breaks_cons (by decide) _

theorem matched_pieces (inside : Bool) : Piece.Matched inside m.pieces := by
  apply Piece.Matched.bracketed (by decide) _ .nil
  apply Piece.matched_intercalate
  · apply Piece.Matched.comma
    split
    · exact .plain Piece.plain_space .nil
    · exact .nil
  · intro x hx
    obtain ⟨n, -, rfl⟩ := List.mem_map.mp hx
    exact .plain (Piece.plain_number _) .nil

theorem kind_of_mem_pieces {p : Piece} (h : p ∈ m.pieces) : p.kind ≠ .word := by
  rw [pieces, List.mem_cons, List.mem_append, List.mem_singleton] at h
  rcases h with rfl | h | rfl
  · decide
  · rcases Piece.mem_intercalate h with h | ⟨x, hx, h⟩
    · rw [List.mem_cons] at h
      rcases h with rfl | h
      · decide
      · split at h
        · rw [List.mem_singleton.mp h]
          decide
        · cases h
    · obtain ⟨n, -, rfl⟩ := List.mem_map.mp hx
      rw [List.mem_singleton.mp h]
      simp
  · decide

theorem bounded_pieces : Piece.Bounded m.pieces :=
  ⟨⟨symbol '(', _, rfl, rfl⟩, ⟨symbol '(' :: _, symbol ')', rfl, rfl⟩⟩

theorem spaced_numbers (n : Digits) (ns : List Digits) :
    Text.Spaced (Text.join m.separator ((n :: ns).map Digits.text)) := by
  induction ns generalizing n with
  | nil =>
    simpa [Text.join, List.intercalate_singleton] using .word n.isDigits.ne_nil n.isDigits.not_blank
  | cons k ns ih =>
    have hw : ∀ c ∈ n.text ++ [','], Text.isBlank c = false := by
      intro c hc
      rcases List.mem_append.mp hc with hc | hc
      · exact n.isDigits.not_blank c hc
      · rw [List.mem_singleton.mp hc]
        decide
    have ih := ih k
    unfold separator at ih ⊢
    split
    · rename_i hs
      rw [if_pos hs] at ih
      have hj := Text.Spaced.space (by simp) hw ih
      simpa [Text.join, List.intercalate_cons_cons] using hj
    · rename_i hs
      rw [if_neg hs] at ih
      have hj := ih.word_append hw
      simpa [Text.join, List.intercalate_cons_cons] using hj

theorem spaced_print {t : Text} (h : t.Spaced) : (t ++ m.print).Spaced := by
  cases hn : m.numbers with
  | nil =>
    have hp : m.print = ("()" : Text) := by
      rw [print, hn]
      rfl
    rw [hp]
    exact h.append_word (Text.not_blank_of_all (by decide))
  | cons n ns =>
    rw [print, hn]
    apply h.append
    apply Text.Spaced.word_append _ (Text.not_blank_of_all (by decide))
    exact (m.spaced_numbers n ns).append_word (Text.not_blank_of_all (by decide))

end TypeModifier

namespace TypePhrase

open Piece (symbol space)

variable (t : TypePhrase)

def words : List Text :=
  t.first :: t.more

def wordPieces : List Piece :=
  [space].intercalate (t.words.map fun w => [⟨.word, w⟩])

def modifierPieces : List Piece :=
  (t.modifier.map TypeModifier.pieces).getD []

def arrayPieces (dimensions : Nat) : List Piece :=
  (List.replicate dimensions [symbol '[', symbol ']']).flatten

def pieces : List Piece :=
  t.wordPieces ++ (t.modifierPieces ++ arrayPieces t.dimensions)

theorem exists_pieces : ∃ ps, t.pieces = ⟨.word, t.first⟩ :: ps := by
  rw [pieces, wordPieces, words, List.map_cons]
  cases t.more with
  | nil => exact ⟨_, rfl⟩
  | cons w ws =>
    rw [List.map_cons, List.intercalate_cons_cons]
    exact ⟨_, rfl⟩

theorem print_arrayPieces (n : Nat) :
    Piece.print (arrayPieces n) = (List.replicate n ("[]" : Text)).flatten := by
  induction n with
  | zero => rfl
  | succ n ih =>
    rw [arrayPieces, List.replicate_succ, List.flatten_cons, Piece.print_append]
    rw [arrayPieces] at ih
    rw [ih]
    rfl

theorem print_pieces : Piece.print t.pieces = t.print := by
  have hw : (t.words.map fun w => [(⟨.word, w⟩ : Piece)]).map Piece.print = t.words := by
    simp [Function.comp_def]
  have hm : Piece.print t.modifierPieces = (t.modifier.map TypeModifier.print).getD [] := by
    unfold modifierPieces
    cases t.modifier with
    | none => rfl
    | some m => exact m.print_pieces
  rw [pieces, Piece.print_append, Piece.print_append, hm, print_arrayPieces, wordPieces,
    Piece.print_intercalate, hw]
  rfl

theorem breaks_arrayPieces (n : Nat) {rest : Text} (hr : Breaks rest) :
    Breaks (Piece.print (arrayPieces n) ++ rest) := by
  cases n with
  | zero => exact hr
  | succ n => exact breaks_cons (by decide) _

theorem spelled_arrayPieces (n : Nat) (rest : Text) : Piece.Spelled rest (arrayPieces n) := by
  induction n with
  | zero => trivial
  | succ n ih => exact ⟨spells_mark (by decide) _, spells_mark (by decide) _, ih⟩

theorem spelled_pieces {rest : Text} (hr : Breaks rest) : Piece.Spelled rest t.pieces := by
  rw [pieces, Piece.spelled_append, Piece.spelled_append, modifierPieces]
  refine ⟨?_, ?_, spelled_arrayPieces _ _⟩
  · apply Piece.spelled_intercalate (P := Breaks) (Q := Stops Text.isBlank)
    · intro x hx rest hr
      obtain ⟨w, hw, rfl⟩ := List.mem_map.mp hx
      exact ⟨(t.isWord w hw).spells hr, trivial⟩
    · intro rest hr
      exact ⟨spells_space hr, trivial⟩
    · intro x hx rest
      obtain ⟨w, hw, rfl⟩ := List.mem_map.mp hx
      rw [Piece.print_cons, List.append_assoc]
      exact stops_blank_append (t.isWord w hw).ne_nil (t.isWord w hw).not_blank _
    · intro rest
      exact breaks_cons (by decide) _
    · rw [Piece.print_append, List.append_assoc]
      cases t.modifier with
      | none => exact breaks_arrayPieces _ hr
      | some m => exact breaks_cons (by decide) _
  · cases t.modifier with
    | none => trivial
    | some m => exact m.spelled_pieces _

theorem matched_pieces (inside : Bool) : Piece.Matched inside t.pieces := by
  apply Piece.Matched.append
  · apply Piece.matched_intercalate
    · exact .plain Piece.plain_space .nil
    · intro x hx
      obtain ⟨w, hw, rfl⟩ := List.mem_map.mp hx
      exact .plain (Piece.plain_word (t.isWord w hw)) .nil
  · apply Piece.Matched.append
    · unfold modifierPieces
      cases t.modifier with
      | none => exact .nil
      | some m => exact m.matched_pieces inside
    · generalize t.dimensions = n
      induction n with
      | zero => exact .nil
      | succ n ih =>
        have hn : Piece.Matched true [] := .nil
        exact .bracketed (by decide) hn ih

theorem mem_words_of_mem_pieces {p : Piece} (h : p ∈ t.pieces) (hk : p.kind = .word) :
    p.text ∈ t.words := by
  rw [pieces, List.mem_append, List.mem_append] at h
  rcases h with h | h | h
  · rcases Piece.mem_intercalate h with h | ⟨x, hx, h⟩
    · rw [List.mem_singleton.mp h] at hk
      cases hk
    · obtain ⟨w, hw, rfl⟩ := List.mem_map.mp hx
      rw [List.mem_singleton.mp h]
      exact hw
  · unfold modifierPieces at h
    cases hm : t.modifier with
    | none =>
      rw [hm] at h
      cases h
    | some m =>
      rw [hm] at h
      exact absurd hk (m.kind_of_mem_pieces h)
  · obtain ⟨x, hx, h⟩ := List.mem_flatten.mp h
    rw [(List.mem_replicate.mp hx).2, List.mem_cons, List.mem_singleton] at h
    rcases h with rfl | rfl <;> cases hk

theorem bounded_arrayPieces (n : Nat) : Piece.Bounded (arrayPieces (n + 1)) := by
  refine ⟨⟨symbol '[', _, rfl, rfl⟩, arrayPieces n ++ [symbol '['], symbol ']', ?_, rfl⟩
  rw [arrayPieces, List.replicate_succ', List.flatten_append, arrayPieces]
  simp

theorem bounded_pieces : Piece.Bounded t.pieces := by
  have hw : Piece.Bounded t.wordPieces := by
    apply Piece.bounded_intercalate (by simp [words])
    intro x hx
    obtain ⟨w, -, rfl⟩ := List.mem_map.mp hx
    exact Piece.bounded_singleton rfl
  have hm : Piece.Bounded (t.wordPieces ++ t.modifierPieces) := by
    unfold modifierPieces
    cases t.modifier with
    | none => simpa using hw
    | some m => simpa using hw.append m.bounded_pieces []
  rw [pieces, ← List.append_assoc]
  cases t.dimensions with
  | zero => simpa [arrayPieces] using hm
  | succ n => simpa using hm.append (bounded_arrayPieces n) []

theorem spaced_words {w : Text} {ws : List Text} (h : ∀ v ∈ w :: ws, IsWord v) :
    Text.Spaced (Text.join " " (w :: ws)) := by
  have hw : IsWord w := h w (by simp)
  induction ws generalizing w with
  | nil => simpa [Text.join, List.intercalate_singleton] using .word hw.ne_nil hw.not_blank
  | cons v ws ih =>
    have hv := ih (fun u hu => h u (List.mem_cons_of_mem w hu)) (h v (by simp))
    have hj := Text.Spaced.space hw.ne_nil hw.not_blank hv
    simpa [Text.join, List.intercalate_cons_cons] using hj

theorem spaced_print : t.print.Spaced := by
  have hw := spaced_words t.isWord
  have hm : Text.Spaced (Text.join " " (t.first :: t.more) ++
      (t.modifier.map TypeModifier.print).getD []) := by
    cases t.modifier with
    | none => simpa using hw
    | some m => exact m.spaced_print hw
  rw [print, ← List.append_assoc]
  apply hm.append_word
  intro c hc
  obtain ⟨u, hu, hc⟩ := List.mem_flatten.mp hc
  rw [(List.mem_replicate.mp hu).2] at hc
  exact Text.not_blank_of_all (by decide) c hc

theorem typeText_eq (before after : Text) (position : Position) :
    Run.typeText (before ++ (Piece.print t.pieces ++ after))
      (Piece.placeCode before.byteSize position t.pieces) = t.print := by
  rw [Run.typeText, t.bounded_pieces.covered_eq, print_pieces, t.spaced_print.singleSpaced_eq]

end TypePhrase

namespace Piece

def defaultClause (value : Option Text) : List Piece :=
  (value.map fun value => [space, ⟨.word, "DEFAULT"⟩, space, literal value]).getD []

theorem print_defaultClause (value : Option Text) :
    print (defaultClause value) =
      (value.map fun value => " DEFAULT " ++ Text.inQuotes '\'' value).getD [] := by
  cases value with
  | none => rfl
  | some value => simp [defaultClause, space, literal]

theorem isWord_default : IsWord "DEFAULT" :=
  isWord_of_all (by decide) (by decide)

theorem breaks_defaultClause (value : Option Text) {rest : Text} (hr : Breaks rest) :
    Breaks (print (defaultClause value) ++ rest) := by
  cases value with
  | none => exact hr
  | some value => exact breaks_cons (by decide) _

theorem spelled_defaultClause (value : Option Text) {rest : Text} (hr : Breaks rest) :
    Spelled rest (defaultClause value) := by
  cases value with
  | none => trivial
  | some value =>
    refine ⟨spells_space ?_, isWord_default.spells ?_, spells_space ?_, spells_literal value hr,
      trivial⟩
    · exact Text.stops_cons.mpr (by decide)
    · exact breaks_cons (by decide) _
    · exact Text.stops_cons.mpr (by decide)

theorem matched_defaultClause (inside : Bool) (value : Option Text) :
    Matched inside (defaultClause value) := by
  cases value with
  | none => exact .nil
  | some value =>
    exact .plain plain_space (.plain (plain_word isWord_default)
      (.plain plain_space (.plain (plain_literal value) .nil)))

theorem Bounded.append_defaultClause {ps : List Piece} (h : Bounded ps) (value : Option Text) :
    Bounded (ps ++ defaultClause value) := by
  cases value with
  | none => simpa [defaultClause] using h
  | some value =>
    have hl : Bounded [literal value] := bounded_singleton rfl
    simpa [defaultClause] using h.append hl [space, ⟨.word, "DEFAULT"⟩, space]

end Piece

end Bindery

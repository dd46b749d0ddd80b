import Bindery.Proofs.Token.Lexes

namespace Bindery

open Lexeme

/-- The tokens stand in the source one behind the other, each at its bytes and at its place. -/
structure Tiles (source : Text) (origin : Position) (tokens : List Token) : Prop where
  nonempty : ∀ t ∈ tokens, t.text ≠ []
  covers : tokens.flatMap Token.text = source
  first : ∀ t, tokens.head? = some t → t.offset = 0
  adjacent : ∀ before t u after, tokens = before ++ t :: u :: after → u.offset = t.stop
  last : ∀ t, tokens.getLast? = some t → t.stop = source.byteSize
  located : ∀ before t after, tokens = before ++ t :: after →
    t.position = origin.advance (before.flatMap Token.text)

theorem Lexes.nonempty {tail text : Text} {offset : Nat} {position : Position} {ts : List Token}
    (h : Lexes tail offset position text ts) : ∀ t ∈ ts, t.text ≠ [] := by
  induction h with
  | done => simp
  | token hs _ ih =>
    intro t ht
    rcases List.mem_cons.mp ht with rfl | ht
    · obtain ⟨c, body, rfl⟩ := hs.exists_cons
      simp
    · exact ih t ht

/-- A token stands at the byte and at the place that the text before it leads to. -/
theorem Lexes.at_token {tail text : Text} {offset : Nat} {position : Position}
    {before after : List Token} {t : Token}
    (h : Lexes tail offset position text (before ++ t :: after)) :
    t.offset = offset + Text.byteSize (before.flatMap Token.text) ∧
      t.position = position.advance (before.flatMap Token.text) := by
  obtain ⟨middle, _, hx⟩ := h.split
  cases hx with
  | token => exact ⟨rfl, rfl⟩

theorem Lexes.tiles {source : Text} {origin : Position} {ts : List Token}
    (h : Lexes [] 0 origin source ts) : Tiles source origin ts := by
  have hc : ts.flatMap Token.text = source := by simpa using h.text_eq.symm
  refine ⟨h.nonempty, hc, ?_, ?_, ?_, ?_⟩
  · intro t ht
    obtain ⟨us, rfl⟩ := List.head?_eq_some_iff.mp ht
    have ht : Lexes [] 0 origin source ([] ++ t :: us) := h
    exact ht.at_token.1
  · rintro before t u after rfl
    have ht := h.at_token.1
    have hu : u.offset = 0 + Text.byteSize ((before ++ [t]).flatMap Token.text) := by
      rw [List.append_cons] at h
      exact h.at_token.1
    rw [hu, Token.stop, ht]
    simp [Text.byteSize_append]
  · intro t ht
    obtain ⟨us, rfl⟩ := List.getLast?_eq_some_iff.mp ht
    rw [Token.stop, h.at_token.1, ← hc]
    simp [Text.byteSize_append]
  · rintro before t after rfl
    exact h.at_token.2

theorem Position.column_advance (p : Position) {t : Text} (h : '\n' ∉ t) :
    (p.advance t).column = p.column + t.length := by
  induction t generalizing p with
  | nil => rfl
  | cons c t ih =>
    rw [List.mem_cons, not_or] at h
    rw [advance_cons, ih _ h.2, next, if_neg (Ne.symm h.1), List.length_cons, Nat.add_comm t.length,
      ← Nat.add_assoc]

/-- Walking over a text that is not empty leads to another place. -/
theorem Position.advance_ne (p : Position) {t : Text} (h : t ≠ []) : p.advance t ≠ p := by
  intro he
  by_cases hn : '\n' ∈ t
  · have hl := line_advance p t
    have hc : 0 < Text.newlines t := List.count_pos_iff.mpr hn
    rw [he] at hl
    omega
  · have hc := column_advance p hn
    have hl := List.length_pos_iff.mpr h
    rw [he] at hc
    omega

theorem Tiles.position_ne {source : Text} {origin : Position} {before between after : List Token}
    {t u : Token} (h : Tiles source origin (before ++ t :: (between ++ u :: after))) :
    t.position ≠ u.position := by
  have ht := h.located before t _ rfl
  have hu := h.located (before ++ t :: between) u after (by simp)
  have hn := h.nonempty t (by simp)
  rw [List.flatMap_append, Position.advance_append, ← ht, List.flatMap_cons] at hu
  rw [hu]
  exact (Position.advance_ne _ (List.append_ne_nil_of_left_ne_nil hn _)).symm

theorem Tiles.before_eq {source : Text} {origin : Position}
    {before before' after after' : List Token} {t t' : Token}
    (h : Tiles source origin (before ++ t :: after))
    (he : before ++ t :: after = before' ++ t' :: after') (hp : t.position = t'.position) :
    before = before' := by
  rcases List.append_eq_append_iff.mp he with ⟨more, rfl, hm⟩ | ⟨more, rfl, hm⟩
  · cases more with
    | nil => exact (List.append_nil before).symm
    | cons u more =>
      cases hm
      exact absurd hp h.position_ne
  · cases more with
    | nil => exact List.append_nil before'
    | cons u more =>
      cases hm
      rw [he] at h
      exact absurd hp.symm h.position_ne

/--
Reading is lossless and exactly located: the tokens of every text tile it, and a text without tokens
has an unclosed construct, behind a front that has tokens, at which the error stands.
-/
theorem tokenize_tiles (source : Text) (origin : Position) :
    (∃ tokens, tokenize source origin = .ok tokens ∧ Tiles source origin tokens) ∨
      ∃ before opened construct, source = before ++ opened ∧
        (∃ tokens, tokenize before origin = .ok tokens) ∧ Unclosed construct opened ∧
        tokenize source origin =
          .error (.unterminated construct (origin.advance before) (snippet opened)) := by
  rcases (Cursor.start source origin).tokens_spec with
    ⟨ts, he, hx⟩ | ⟨ts, opened, construct, hx, hu, he⟩
  · exact .inl ⟨ts, he, hx.tiles⟩
  · exact .inr ⟨ts.flatMap Token.text, opened, construct, hx.text_eq,
      ⟨ts, tokenize_eq_ok_iff.mpr hx.read⟩, hu, he⟩

end Bindery

import Bindery.Proofs.Token.Boundary
import Bindery.Token.Cursor

namespace Bindery

open Lexeme

/--
The tokens of a text that stands at byte `offset` and place `position`, up to the part `tail` of it
that is not read.
-/
inductive Lexes (tail : Text) : Nat → Position → Text → List Token → Prop
  | done {offset : Nat} {position : Position} : Lexes tail offset position tail []
  | token {offset : Nat} {position : Position} {kind : TokenKind} {t rest : Text}
      {tokens : List Token} : Spells kind t rest →
      Lexes tail (offset + t.byteSize) (position.advance t) rest tokens →
      Lexes tail offset position (t ++ rest) (⟨kind, t, offset, position⟩ :: tokens)

theorem Spells.exists_cons {kind : TokenKind} {t rest : Text} (h : Spells kind t rest) :
    ∃ c body, t = c :: body := by
  cases h with
  | dollarString htag _ =>
    obtain ⟨name, _, rfl⟩ := htag
    exact ⟨_, _, rfl⟩
  | _ => exact ⟨_, _, rfl⟩

/-- Some text lets the token stand before it. -/
def Token.Proper (t : Token) : Prop :=
  ∃ rest, Spells t.kind t.text rest

theorem Lexes.proper {tail text : Text} {offset : Nat} {position : Position} {ts : List Token}
    (h : Lexes tail offset position text ts) : ∀ t ∈ ts, t.Proper := by
  induction h with
  | done => simp
  | token hs _ ih =>
    intro t ht
    rcases List.mem_cons.mp ht with rfl | ht
    · exact ⟨_, hs⟩
    · exact ih t ht

namespace Cursor

theorem step_spelled {kind : TokenKind} {t rest : Text} (h : Spells kind t rest) (offset : Nat)
    (position : Position) :
    step ⟨t ++ rest, offset, position⟩ =
      .token ⟨kind, t, offset, position⟩ ⟨rest, offset + t.byteSize, position.advance t⟩ := by
  obtain ⟨c, body, rfl⟩ := h.exists_cons
  simp [step, lexeme_complete h, advance]

theorem step_cases (s : Cursor) :
    (s.rest = [] ∧ s.step = .finished) ∨
      (∃ kind t rest, s.rest = t ++ rest ∧ Spells kind t rest ∧
        s.step = .token ⟨kind, t, s.offset, s.position⟩
          ⟨rest, s.offset + t.byteSize, s.position.advance t⟩) ∨
      ∃ construct, Unclosed construct s.rest ∧
        s.step = .fault (.unterminated construct s.position (snippet s.rest))
          (s.advance (construct.passed s.rest)) := by
  obtain ⟨text, offset, position⟩ := s
  cases text with
  | nil => exact .inl ⟨rfl, rfl⟩
  | cons c text =>
    cases hl : lexeme c text with
    | ok read =>
      obtain ⟨kind, n⟩ := read
      obtain ⟨body, rest, rfl, _, hs⟩ := lexeme_sound hl
      exact .inr (.inl ⟨kind, c :: body, rest, rfl, hs, step_spelled hs offset position⟩)
    | error failure =>
      obtain ⟨construct, n⟩ := failure
      obtain ⟨hu, rfl⟩ := lexeme_unclosed hl
      refine .inr (.inr ⟨construct, hu, ?_⟩)
      simp only [step, hl]

theorem tokens_finished {s : Cursor} (h : s.step = .finished) : s.tokens = .ok [] := by
  rw [tokens]
  split <;> simp_all

theorem tokens_fault {s next : Cursor} {error : ParseError} (h : s.step = .fault error next) :
    s.tokens = .error error := by
  rw [tokens]
  split <;> simp_all

theorem tokens_token {s next : Cursor} {t : Token} (h : s.step = .token t next) :
    s.tokens = (next.tokens).map (t :: ·) := by
  rw [tokens]
  split
  · simp_all
  · simp_all
  · rename_i h'
    rw [h] at h'
    cases h'
    cases next.tokens <;> rfl

theorem tokens_of_lexes {text : Text} {offset : Nat} {position : Position} {ts : List Token}
    (h : Lexes [] offset position text ts) : tokens ⟨text, offset, position⟩ = .ok ts := by
  induction h with
  | done => exact tokens_finished rfl
  | token hs _ ih =>
    rw [tokens_token (step_spelled hs _ _), ih]
    rfl

/-- The reader gives the tokens of the whole text, or it stops at a construct that is not closed. -/
theorem tokens_spec (s : Cursor) :
    (∃ ts, s.tokens = .ok ts ∧ Lexes [] s.offset s.position s.rest ts) ∨
      ∃ ts opened construct, Lexes opened s.offset s.position s.rest ts ∧
        Unclosed construct opened ∧
        s.tokens = .error (.unterminated construct (s.position.advance (ts.flatMap Token.text))
          (snippet opened)) := by
  -- The text left is the measure by which the reader itself ends.
  induction hn : s.rest.length using Nat.strongRecOn generalizing s with
  | ind n ih =>
    rcases s.step_cases with ⟨hr, hf⟩ | ⟨kind, t, rest, hr, hs, ht⟩ | ⟨construct, hu, hf⟩
    · refine .inl ⟨[], tokens_finished hf, ?_⟩
      rw [hr]
      exact .done
    · have hl := step_token_shorter ht
      rw [tokens_token ht, hr]
      rcases ih _ (hn ▸ hl) _ rfl with ⟨ts, he, hx⟩ | ⟨ts, opened, construct, hx, hu, he⟩
      · refine .inl ⟨_, by rw [he]; rfl, .token hs hx⟩
      · refine .inr ⟨_, opened, construct, .token hs hx, hu, ?_⟩
        rw [he]
        simp [Except.map]
    · refine .inr ⟨[], s.rest, construct, .done, hu, ?_⟩
      rw [tokens_fault hf]
      rfl

theorem tokens_eq_ok_iff {s : Cursor} {ts : List Token} :
    s.tokens = .ok ts ↔ Lexes [] s.offset s.position s.rest ts := by
  constructor
  · intro h
    rcases s.tokens_spec with ⟨us, he, hx⟩ | ⟨us, opened, construct, _, _, he⟩
    · rw [h] at he
      cases he
      exact hx
    · rw [h] at he
      cases he
  · exact tokens_of_lexes

end Cursor

theorem tokenize_eq_ok_iff {source : Text} {origin : Position} {ts : List Token} :
    tokenize source origin = .ok ts ↔ Lexes [] 0 origin source ts :=
  Cursor.tokens_eq_ok_iff

/-- The tokens of a front of the text do not depend on what follows, if it ends with code before
white space. -/
theorem Lexes.before_blank {text : Text} {offset : Nat} {position : Position} {ts : List Token}
    {t : Token} (h : Lexes [] offset position text (ts ++ [t])) (ht : t.isTrivia = false)
    {c : Char} (hc : Text.isBlank c = true) (tail : Text) :
    Lexes (c :: tail) offset position (text ++ c :: tail) (ts ++ [t]) := by
  induction ts generalizing text offset position with
  | nil =>
    cases h with
    | token hs hx =>
      simp only [Token.isTrivia, Bool.or_eq_false_iff, beq_eq_false_iff_ne] at ht
      cases hx
      rw [List.append_assoc]
      exact .token (hs.before_blank ht.1 ht.2 hc tail) .done
  | cons u ts ih =>
    cases h with
    | @token _ _ kind u rest _ hs hx =>
      have hx : Lexes [] _ _ rest (ts ++ [t]) := hx
      have hr : ∃ d body, rest = d :: body := by
        obtain ⟨v, vs, hv⟩ := List.exists_cons_of_ne_nil (List.concat_ne_nil t ts)
        rw [hv] at hx
        cases hx with
        | token hs' _ =>
          obtain ⟨d, body, rfl⟩ := hs'.exists_cons
          exact ⟨d, _, rfl⟩
      obtain ⟨d, body, rfl⟩ := hr
      rw [List.append_assoc]
      exact .token (hs.append_blank hc tail) (ih hx)

theorem Cursor.tokens_lexes {tail text : Text} {offset : Nat} {position : Position}
    {ts : List Token} (h : Lexes tail offset position text ts) :
    tokens ⟨text, offset, position⟩ =
      (tokens ⟨tail, offset + Text.byteSize (ts.flatMap Token.text),
        position.advance (ts.flatMap Token.text)⟩).map (ts ++ ·) := by
  induction h with
  | @done offset position =>
    change _ = (tokens ⟨tail, offset, position⟩).map id
    cases tokens ⟨tail, offset, position⟩ <;> rfl
  | @token offset position kind t rest ts hs hx ih =>
    rw [tokens_token (step_spelled hs _ _), ih, List.flatMap_cons, Text.byteSize_append,
      Position.advance_append, Nat.add_assoc]
    generalize tokens ⟨tail, _, _⟩ = more
    cases more <;> rfl

theorem Lexes.text_eq {tail text : Text} {offset : Nat} {position : Position} {ts : List Token}
    (h : Lexes tail offset position text ts) : text = ts.flatMap Token.text ++ tail := by
  induction h with
  | done => rfl
  | token _ _ ih => rw [ih, List.flatMap_cons, List.append_assoc]

theorem Lexes.read {tail text : Text} {offset : Nat} {position : Position} {ts : List Token}
    (h : Lexes tail offset position text ts) :
    Lexes [] offset position (ts.flatMap Token.text) ts := by
  induction h with
  | done => exact .done
  | token hs hx ih =>
    rw [hx.text_eq] at hs
    exact .token hs.cut ih

/-- A run of tokens in two parts is two runs, the second one behind the text of the first. -/
theorem Lexes.split {tail text : Text} {offset : Nat} {position : Position} {ts us : List Token}
    (h : Lexes tail offset position text (ts ++ us)) :
    ∃ middle, Lexes middle offset position text ts ∧
      Lexes tail (offset + Text.byteSize (ts.flatMap Token.text))
        (position.advance (ts.flatMap Token.text)) middle us := by
  induction ts generalizing text offset position with
  | nil => exact ⟨text, .done, h⟩
  | cons t ts ih =>
    cases h with
    | token hs hx =>
      obtain ⟨middle, ht, hu⟩ := ih hx
      refine ⟨middle, .token hs ht, ?_⟩
      simpa [Text.byteSize_append, Nat.add_assoc] using hu

end Bindery

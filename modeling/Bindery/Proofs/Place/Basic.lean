import Bindery.Proofs.Token.Lexes

namespace Bindery

/-- The place `n` lines further down. -/
def Position.down (n : Nat) (p : Position) : Position :=
  ⟨p.line + n, p.column⟩

theorem Position.next_down (n : Nat) (p : Position) (c : Char) :
    (p.down n).next c = (p.next c).down n := by
  unfold next
  split
  · simp only [down, Nat.add_right_comm]
  · rfl

theorem Position.advance_down (n : Nat) (p : Position) (t : Text) :
    (p.down n).advance t = (p.advance t).down n := by
  induction t generalizing p with
  | nil => rfl
  | cons c t ih => rw [advance_cons, next_down, ih, advance_cons]

/-- The same failure `n` lines further down. -/
def ParseError.down (n : Nat) : ParseError → ParseError
  | .unterminated construct position quoted => .unterminated construct (position.down n) quoted
  | .unbalanced position quoted => .unbalanced (position.down n) quoted
  | .malformed cause position quoted => .malformed cause (position.down n) quoted

/-- The outcome of reading a text that stands `n` lines further down. -/
def lowered {α β : Type} (n : Nat) (f : α → β) : Except ParseError α → Except ParseError β
  | .ok a => .ok (f a)
  | .error e => .error (e.down n)

section Lowered

variable {α β γ δ : Type} {n : Nat}

theorem lowered_bind {f : α → β} {x : Except ParseError α} {g : β → Except ParseError δ}
    {k : α → Except ParseError γ} {h : γ → δ} (hk : ∀ a, g (f a) = lowered n h (k a)) :
    lowered n f x >>= g = lowered n h (x >>= k) := by
  cases x with
  | ok a => exact hk a
  | error e => rfl

theorem ite_lowered {f : α → β} {p : Prop} [Decidable p] {x y : Except ParseError β}
    {x' y' : Except ParseError α} (hx : x = lowered n f x') (hy : y = lowered n f y') :
    (if p then x else y) = lowered n f (if p then x' else y') := by
  split
  · exact hx
  · exact hy

theorem mapM_lowered {d : α → β} {f : γ → δ} {g : β → Except ParseError δ}
    {k : α → Except ParseError γ} (hk : ∀ a, g (d a) = lowered n f (k a)) (xs : List α) :
    (xs.map d).mapM g = lowered n (List.map f) (xs.mapM k) := by
  induction xs with
  | nil => rfl
  | cons x xs ih =>
    rw [List.map_cons, List.mapM_cons, List.mapM_cons, hk, ih]
    apply lowered_bind
    intro c
    apply lowered_bind
    intro cs
    rfl

end Lowered

def Token.move (lines bytes : Nat) (t : Token) : Token :=
  ⟨t.kind, t.text, t.offset + bytes, t.position.down lines⟩

namespace Cursor

/-- The cursor before the same text `lines` lines and `bytes` bytes further on. -/
def move (lines bytes : Nat) (s : Cursor) : Cursor :=
  ⟨s.rest, s.offset + bytes, s.position.down lines⟩

theorem advance_move (lines bytes : Nat) (s : Cursor) (n : Nat) :
    (s.move lines bytes).advance n = (s.advance n).move lines bytes := by
  simp only [advance, move, Position.advance_down, Nat.add_right_comm]

theorem step_move (lines bytes : Nat) (s : Cursor) :
    (s.move lines bytes).step = match s.step with
      | .finished => .finished
      | .token t next => .token (t.move lines bytes) (next.move lines bytes)
      | .fault e next => .fault (e.down lines) (next.move lines bytes) := by
  obtain ⟨rest, offset, position⟩ := s
  cases rest with
  | nil => rfl
  | cons c rest =>
    have ha (n : Nat) := advance_move lines bytes ⟨c :: rest, offset, position⟩ n
    simp only [move] at ha
    cases hl : lexeme c rest with
    | ok read =>
      obtain ⟨kind, n⟩ := read
      simp only [step, move, hl, ha]
      rfl
    | error failure =>
      obtain ⟨construct, n⟩ := failure
      simp only [step, move, hl, ha]
      rfl

theorem tokens_move (lines bytes : Nat) (s : Cursor) :
    (s.move lines bytes).tokens = lowered lines (List.map (Token.move lines bytes)) s.tokens := by
  induction hn : s.rest.length using Nat.strongRecOn generalizing s with
  | ind n ih =>
    have hm := step_move lines bytes s
    cases hs : s.step with
    | finished =>
      rw [hs] at hm
      rw [tokens_finished hs, tokens_finished hm]
      rfl
    | token t next =>
      rw [hs] at hm
      rw [tokens_token hs, tokens_token hm, ih _ (hn ▸ step_token_shorter hs) _ rfl]
      cases next.tokens <;> rfl
    | fault e next =>
      rw [hs] at hm
      rw [tokens_fault hs, tokens_fault hm]
      rfl

end Cursor

end Bindery

import Bindery.Token.Lexeme

namespace Bindery

/-- What is still to be read of a text. -/
structure Cursor where
  rest : Text
  offset : Nat
  position : Position
  deriving DecidableEq, Repr

/-- One step of a cursor. -/
inductive Step where
  | finished
  | token (token : Token) (next : Cursor)
  | fault (error : ParseError) (next : Cursor)
  deriving DecidableEq, Repr

namespace Cursor

/-- The cursor at the beginning of a text whose first character stands at `origin`. -/
def start (source : Text) (origin : Position) : Cursor :=
  ⟨source, 0, origin⟩

/-- The cursor `n` characters further. -/
def advance (s : Cursor) (n : Nat) : Cursor :=
  let passed : Text := s.rest.take n
  ⟨s.rest.drop n, s.offset + passed.byteSize, s.position.advance passed⟩

/-- Reads the next token. A construct that is not closed is a fault, and the cursor stays where the
scan for its end has left it. -/
def step (s : Cursor) : Step :=
  match s.rest with
  | [] => .finished
  | c :: rest =>
    match lexeme c rest with
    | .ok (kind, n) =>
      .token ⟨kind, c :: rest.take n, s.offset, s.position⟩ (s.advance (n + 1))
    | .error (construct, n) =>
      .fault (.unterminated construct s.position (snippet s.rest)) (s.advance n)

theorem step_token_shorter {s next : Cursor} {t : Token} (h : s.step = .token t next) :
    next.rest.length < s.rest.length := by
  unfold step at h
  split at h
  · contradiction
  · rename_i c rest hs
    split at h
    · cases h
      simp only [advance, hs, List.drop_succ_cons, List.length_drop, List.length_cons]
      omega
    · contradiction

/-- All tokens from the cursor on, up to the end or the first fault. -/
def tokens (s : Cursor) : Except ParseError (List Token) :=
  match h : s.step with
  | .finished => .ok []
  | .fault error _ => .error error
  | .token t next =>
    have := step_token_shorter h
    do
      let more ← next.tokens
      return t :: more
termination_by s.rest.length

end Cursor

/-- The tokens of a text whose first character stands at `origin`. -/
def tokenize (source : Text) (origin : Position) : Except ParseError (List Token) :=
  (Cursor.start source origin).tokens

/-- The tokens of a text without white space and comments. -/
def significantTokens (source : Text) (origin : Position) : Except ParseError (List Token) := do
  let tokens ← tokenize source origin
  return tokens.filter fun t => !t.isTrivia

end Bindery

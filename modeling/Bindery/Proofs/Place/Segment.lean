import Bindery.Proofs.Place.Basic
import Bindery.Proofs.Statement.Groups

namespace Bindery

def Statement.down (n : Nat) (s : Statement) : Statement :=
  { s with position := s.position.down n }

namespace Pending

/-- The statement begun as many lines and bytes further on. -/
def move (lines bytes : Nat) (p : Pending) : Pending :=
  ⟨p.tokens.map (Token.move lines bytes), p.position.down lines, p.depth, p.doc⟩

variable (lines bytes : Nat) (p : Pending)

theorem source_move : (p.move lines bytes).source = p.source := by
  rw [source, source, move, ← List.map_reverse, List.flatMap_map]
  rfl

theorem text_move : (p.move lines bytes).text = p.text := by
  rw [text, text, move, ← List.map_reverse, List.flatMap_map]
  rfl

theorem read_move (t : Token) :
    (p.move lines bytes).read (t.move lines bytes) =
      lowered lines (move lines bytes) (p.read t) := by
  have hs := source_move lines bytes { p with tokens := t :: p.tokens }
  apply ite_lowered
  · rfl
  · apply ite_lowered
    · apply ite_lowered
      · rw [lowered, ParseError.down, ← hs]
        rfl
      · rfl
    · rfl

theorem finish_move (ending : Text) :
    (p.move lines bytes).finish ending =
      lowered lines (Statement.down lines) (p.finish ending) := by
  rw [finish, finish, source_move, text_move]
  apply ite_lowered
  · rfl
  · rfl

end Pending

namespace Segmenter

/-- The same state among tokens that stand further on. -/
def move (lines bytes : Nat) : Segmenter → Segmenter
  | .between comments afterCode => .between comments afterCode
  | .inside pending => .inside (pending.move lines bytes)

variable (lines bytes : Nat)

theorem read_move (s : Segmenter) (t : Token) :
    (s.move lines bytes).read (t.move lines bytes) =
      lowered lines (Prod.map (move lines bytes) (Option.map (Statement.down lines)))
        (s.read t) := by
  cases s with
  | between comments afterCode =>
    apply ite_lowered
    · rfl
    · apply ite_lowered
      · rfl
      · apply ite_lowered
        · rfl
        · change (Pending.move lines bytes (.start t comments)).read _ >>= _ = _
          rw [Pending.read_move]
          apply lowered_bind
          intro pending
          rfl
  | inside pending =>
    apply ite_lowered
    · change (pending.move lines bytes).finish t.text >>= _ = _
      rw [Pending.finish_move]
      apply lowered_bind
      intro statement
      rfl
    · rw [Pending.read_move]
      apply lowered_bind
      intro next
      rfl

theorem statements_move (s : Segmenter) (tokens : List Token) :
    (s.move lines bytes).statements (tokens.map (Token.move lines bytes)) =
      lowered lines (List.map (Statement.down lines)) (s.statements tokens) := by
  induction tokens generalizing s with
  | nil =>
    cases s with
    | between comments afterCode => rfl
    | inside pending =>
      change (pending.move lines bytes).finish [] >>= _ = _
      rw [Pending.finish_move]
      apply lowered_bind
      intro statement
      rfl
  | cons t tokens ih =>
    rw [List.map_cons, statements, statements, read_move]
    apply lowered_bind
    rintro ⟨next, statement⟩
    change (next.move lines bytes).statements (tokens.map (Token.move lines bytes)) >>= _ = _
    rw [ih]
    apply lowered_bind
    intro more
    cases statement <;> rfl

end Segmenter

end Bindery

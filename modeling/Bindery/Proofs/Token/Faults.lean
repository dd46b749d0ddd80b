import Bindery.Proofs.Token.Lexes

namespace Bindery

namespace Cursor

/-- The cursor behind one step, whatever the step gives. -/
def next (s : Cursor) : Cursor :=
  match s.step with
  | .finished => s
  | .token _ next => next
  | .fault _ next => next

/-- The cursor behind a number of steps. -/
def after (s : Cursor) : Nat → Cursor
  | 0 => s
  | n + 1 => (s.after n).next

def finish (source : Text) (origin : Position) : Cursor :=
  ⟨[], source.byteSize, origin.advance source⟩

/-- The cursor stands behind a front of the source, at its byte and its place. -/
def Behind (source : Text) (origin : Position) (s : Cursor) : Prop :=
  ∃ front, source = front ++ s.rest ∧ s.offset = Text.byteSize front ∧
    s.position = origin.advance front

section Behind

variable {source : Text} {origin : Position} {s : Cursor}

theorem behind_start (source : Text) (origin : Position) :
    Behind source origin (start source origin) :=
  ⟨[], rfl, rfl, rfl⟩

theorem Behind.move (h : Behind source origin s) {passed rest : Text}
    (hr : s.rest = passed ++ rest) :
    Behind source origin ⟨rest, s.offset + passed.byteSize, s.position.advance passed⟩ := by
  obtain ⟨front, hs, ho, hp⟩ := h
  refine ⟨front ++ passed, ?_, ?_, ?_⟩
  · rw [hs, hr, List.append_assoc]
  · rw [ho, Text.byteSize_append]
  · rw [hp, Position.advance_append]

theorem Behind.advance (h : Behind source origin s) (n : Nat) :
    Behind source origin (s.advance n) := by
  apply h.move
  exact (List.take_append_drop n s.rest).symm

theorem Behind.next (h : Behind source origin s) : Behind source origin s.next := by
  rcases s.step_cases with ⟨-, hf⟩ | ⟨kind, t, rest, hr, -, ht⟩ | ⟨construct, -, hf⟩
  · rw [Cursor.next, hf]
    exact h
  · rw [Cursor.next, ht]
    exact h.move hr
  · rw [Cursor.next, hf]
    exact h.advance _

theorem behind_after (source : Text) (origin : Position) (calls : Nat) :
    Behind source origin ((start source origin).after calls) := by
  induction calls with
  | zero => exact behind_start source origin
  | succ calls ih => exact ih.next

theorem Behind.eq_finish (h : Behind source origin s) (hr : s.rest = []) :
    s = finish source origin := by
  obtain ⟨rest, offset, position⟩ := s
  obtain ⟨front, hs, ho, hp⟩ := h
  dsimp only at hr hs ho hp
  rw [hr, List.append_nil] at hs
  rw [finish, hs, hr, ho, hp]

end Behind

theorem step_finish (source : Text) (origin : Position) :
    (finish source origin).step = .finished := rfl

theorem after_of_next_eq {s : Cursor} (h : s.next = s) (n : Nat) : s.after n = s := by
  induction n with
  | zero => rfl
  | succ n ih => rw [after, ih, h]

/-- A fault names the construct that is open at the cursor, and passes what was scanned of it. -/
theorem step_eq_fault {s next : Cursor} {error : ParseError} (h : s.step = .fault error next) :
    ∃ construct, Unclosed construct s.rest ∧
      error = .unterminated construct s.position (snippet s.rest) ∧
      next = s.advance (construct.passed s.rest) := by
  rcases s.step_cases with ⟨-, hf⟩ | ⟨kind, t, rest, -, -, ht⟩ | ⟨construct, hu, hf⟩
  · rw [h] at hf
    cases hf
  · rw [h] at ht
    cases ht
  · rw [h] at hf
    cases hf
    exact ⟨construct, hu, rfl, rfl⟩

theorem rest_advance_passed (s : Cursor) {construct : Construct} (h : construct ≠ .dollarString) :
    (s.advance (construct.passed s.rest)).rest = [] := by
  have hl : construct.passed s.rest = s.rest.length := by
    cases construct with
    | dollarString => exact absurd rfl h
    | _ => rfl
  rw [hl, advance]
  exact List.drop_length

/--
A reader that has failed is finished or untouched, after any number of calls on any source. An open
string literal, quoted identifier or block comment has taken the whole source, and every later call
gives the end. An open dollar-quoted text has taken nothing, and every later call gives the same
fault again.
-/
theorem step_after_fault {source : Text} {origin : Position} {calls : Nat} {error : ParseError}
    {next : Cursor} (h : ((start source origin).after calls).step = .fault error next) :
    ∃ construct position quoted, error = .unterminated construct position quoted ∧
      (construct ≠ .dollarString →
        next = finish source origin ∧ ∀ later, (next.after later).step = .finished) ∧
      (construct = .dollarString →
        next = (start source origin).after calls ∧
          ∀ later, (next.after later).step = .fault error next) := by
  have hb := behind_after source origin calls
  generalize (start source origin).after calls = s at h hb
  obtain ⟨construct, -, he, hn⟩ := step_eq_fault h
  refine ⟨construct, s.position, snippet s.rest, he, ?_, ?_⟩
  · intro hc
    have hf : next = finish source origin := by
      rw [hn]
      apply (hb.advance _).eq_finish
      exact rest_advance_passed s hc
    refine ⟨hf, ?_⟩
    intro later
    have hs : next.next = next := by rw [hf]; rfl
    rw [after_of_next_eq hs, hf, step_finish]
  · intro hc
    have hs : next = s := by rw [hn, hc]; rfl
    refine ⟨hs, ?_⟩
    intro later
    -- The failed step is a step from the cursor to itself, so it is made again and again.
    have hfix : next.next = next := by rw [hs, Cursor.next, h, hs]
    rw [after_of_next_eq hfix, hs, h, hs]

/-- A backslash at the end of a source that begins on line three, and a tag that is not closed. -/
theorem step_after_fault_of_open :
    (((start "x E'\n\\" ⟨3, 5⟩).after 2).step =
        .fault (.unterminated .stringLiteral ⟨3, 7⟩ "E'\n\\") ⟨[], 6, ⟨4, 2⟩⟩ ∧
      ∀ later, ((⟨[], 6, ⟨4, 2⟩⟩ : Cursor).after later).step = .finished) ∧
    (((start "x $a$ $b$" .start).after 2).step =
        .fault (.unterminated .dollarString ⟨1, 3⟩ "$a$ $b$") ⟨"$a$ $b$", 2, ⟨1, 3⟩⟩ ∧
      ∀ later, ((⟨"$a$ $b$", 2, ⟨1, 3⟩⟩ : Cursor).after later).step =
        .fault (.unterminated .dollarString ⟨1, 3⟩ "$a$ $b$") ⟨"$a$ $b$", 2, ⟨1, 3⟩⟩) := by
  have hs : ((start "x E'\n\\" ⟨3, 5⟩).after 2).step =
      .fault (.unterminated .stringLiteral ⟨3, 7⟩ "E'\n\\") ⟨[], 6, ⟨4, 2⟩⟩ := by
    decide
  have hd : ((start "x $a$ $b$" .start).after 2).step =
      .fault (.unterminated .dollarString ⟨1, 3⟩ "$a$ $b$") ⟨"$a$ $b$", 2, ⟨1, 3⟩⟩ := by
    decide
  obtain ⟨_, _, _, he, hfinished, -⟩ := step_after_fault hs
  obtain ⟨_, _, _, he', -, huntouched⟩ := step_after_fault hd
  cases he
  cases he'
  exact ⟨⟨hs, (hfinished (by decide)).2⟩, hd, (huntouched rfl).2⟩

end Cursor

end Bindery

import Bindery.Proofs.Place.Segment
import Bindery.Proofs.Token.Printing

namespace Bindery

open Text (Stops)

/-- A token that is not white space keeps its spelling when a line end is put behind the text. -/
theorem Spells.newline {kind : TokenKind} {t rest : Text} (h : Spells kind t rest)
    (hw : kind ≠ .whitespace) (tail : Text) : Spells kind t (rest ++ '\n' :: tail) := by
  by_cases hc : kind = .comment
  · subst hc
    cases h with
    | lineComment ht hr =>
      apply Spells.lineComment ht
      cases rest with
      | nil => exact Text.stops_cons.mpr rfl
      | cons d rest => exact hr.append _
    | blockComment ht => exact .blockComment ht
  · exact h.before_blank hw hc rfl tail

/-- The second run is the first with white space put at its end, where it makes a token of its own
or a last token of white space longer. -/
inductive Padded : List Token → List Token → Prop
  | added {w : Token} : w.kind = .whitespace → w.Proper → Padded [] [w]
  | longer {v w : Token} : v.kind = .whitespace → v.Proper → w.kind = .whitespace → w.Proper →
      Padded [v] [w]
  | same {t : Token} {ts us : List Token} : Padded ts us → Padded (t :: ts) (t :: us)

theorem Lexes.newline {text tail : Text} {offset : Nat} {position : Position} {ts : List Token}
    (h : Lexes [] offset position text ts) (ht : Stops Text.isBlank tail) :
    ∃ us, Lexes tail offset position (text ++ '\n' :: tail) us ∧ Padded ts us := by
  induction h with
  | @done offset position =>
    have hs : Spells .whitespace ['\n'] tail := .whitespace rfl (by simp) ht
    exact ⟨[⟨.whitespace, ['\n'], offset, position⟩], .token hs .done, .added rfl ⟨tail, hs⟩⟩
  | @token offset position kind t rest ts hs hx ih =>
    obtain ⟨us, hu, hp⟩ := ih
    by_cases hw : kind = .whitespace
    · subst hw
      cases hs with
      | @whitespace c t _ hc hb hr =>
        cases hx with
        | done =>
          have hl : Spells .whitespace (c :: (t ++ ['\n'])) tail := by
            refine .whitespace hc ?_ ht
            intro d hd
            rcases List.mem_append.mp hd with hd | hd
            · exact hb d hd
            · rw [List.mem_singleton.mp hd]
              rfl
          refine ⟨[⟨.whitespace, c :: (t ++ ['\n']), offset, position⟩], ?_, ?_⟩
          · simpa using Lexes.token hl .done
          · exact .longer rfl ⟨[], .whitespace hc hb hr⟩ rfl ⟨tail, hl⟩
        | token hs' hx' =>
          obtain ⟨d, body, rfl⟩ := hs'.exists_cons
          refine ⟨_ :: us, ?_, .same hp⟩
          rw [List.append_assoc]
          exact .token (.whitespace hc hb (hr.append _)) hu
    · refine ⟨_ :: us, ?_, .same hp⟩
      rw [List.append_assoc]
      exact .token (hs.newline hw tail) hu

namespace Pending

theorem text_pad {p : Pending} {w : Token} (hk : w.kind = .whitespace) (hw : w.Proper) :
    Text.trimEnd (text { p with tokens := w :: p.tokens }) = Text.trimEnd p.text := by
  have hb := blanked_of_trivia (by simp [Token.isTrivia, hk]) hw
  rw [text, List.reverse_cons, List.flatMap_append, List.flatMap_singleton]
  exact Text.trimEnd_append_blank hb

theorem read_whitespace {p : Pending} {w : Token} (hk : w.kind = .whitespace) :
    p.read w = .ok { p with tokens := w :: p.tokens } := by
  have ht : w.isTrivia = true := by simp [Token.isTrivia, hk]
  simp [read, Token.isSymbol_of_trivia ht]

end Pending

namespace Segmenter

theorem read_whitespace {w : Token} (hk : w.kind = .whitespace) (comments : List Text)
    (afterCode : Bool) :
    (between comments afterCode).read w =
      .ok (between (if Text.newlines w.text > 1 then [] else comments)
        (afterCode && Text.newlines w.text == 0), none) := by
  rw [read, if_pos hk]

theorem statements_pad {p : Pending} {w : Token} (hk : w.kind = .whitespace) (rest : List Token) :
    (inside p).statements (w :: rest) =
      (inside { p with tokens := w :: p.tokens }).statements rest := by
  apply statements_none
  exact read_inside (Token.isSymbol_of_trivia (by simp [Token.isTrivia, hk]) ';')
    (Pending.read_whitespace hk)

theorem closed_of_statements_nil {p : Pending} {ss : List Statement}
    (h : (inside p).statements [] = .ok ss) :
    p.depth = 0 ∧ ss = [⟨Text.trimEnd p.text, p.position, p.doc⟩] := by
  rcases Nat.eq_zero_or_pos p.depth with hd | hd
  · rw [endsGroup_nil.closed p hd] at h
    cases h
    exact ⟨hd, rfl⟩
  · obtain ⟨quoted, hq⟩ := endsGroup_nil.opened p hd
    rw [hq] at h
    cases h

theorem statements_blank_end {s : Segmenter} {v : Token} {ss : List Statement}
    (h : s.statements [v] = .ok ss) (hk : v.kind = .whitespace) (hv : v.Proper) :
    s.statements [] = .ok ss := by
  cases s with
  | between comments afterCode =>
    rw [statements_none (read_whitespace hk comments afterCode)] at h
    exact h
  | inside p =>
    rw [statements_pad hk] at h
    obtain ⟨hd, rfl⟩ := closed_of_statements_nil h
    rw [endsGroup_nil.closed p hd, Pending.text_pad hk hv]
    rfl

theorem statements_blank_semicolon {s : Segmenter} {w semicolon : Token} {ss : List Statement}
    (h : s.statements [] = .ok ss) (hk : w.kind = .whitespace) (hw : w.Proper)
    (hs : semicolon.isSymbol ';' = true) (rest : List Token) :
    s.statements (w :: semicolon :: rest) =
      ((between [] true).statements rest).map (ss ++ ·) := by
  cases s with
  | between comments afterCode =>
    cases h
    rw [statements_none (read_whitespace hk comments afterCode), statements_semicolon hs]
    cases (between [] true).statements rest <;> rfl
  | inside p =>
    obtain ⟨hd, rfl⟩ := closed_of_statements_nil h
    have hc := (endsGroup_semicolon hs rest).closed { p with tokens := w :: p.tokens } hd
    rw [statements_pad hk, hc, Pending.text_pad hk hw]
    rfl

/-- White space and a semicolon behind a text finish its last statement as its end does. -/
theorem statements_padded {s : Segmenter} {ts us : List Token} {ss : List Statement}
    (h : s.statements ts = .ok ss) (hp : Padded ts us) {semicolon : Token}
    (hs : semicolon.isSymbol ';' = true) (rest : List Token) :
    s.statements (us ++ semicolon :: rest) =
      ((between [] true).statements rest).map (ss ++ ·) := by
  -- The induction follows the common tokens; the two runs differ only in the last one.
  induction hp generalizing s ss with
  | added hk hw => exact statements_blank_semicolon h hk hw hs rest
  | longer hv hv' hk hw =>
    exact statements_blank_semicolon (statements_blank_end h hv hv') hk hw hs rest
  | @same t ts us hp ih =>
    cases hr : s.read t with
    | error e =>
      rw [statements_error hr] at h
      cases h
    | ok read =>
      obtain ⟨next, _ | statement⟩ := read
      · rw [statements_none hr] at h
        rw [List.cons_append, statements_none hr, ih h]
      · rw [statements_some hr] at h
        rw [List.cons_append, statements_some hr]
        cases hm : next.statements ts with
        | error e =>
          rw [hm] at h
          cases h
        | ok more =>
          rw [hm] at h
          cases h
          rw [ih hm]
          cases (between [] true).statements rest <;> rfl

/-- The statements from a cursor on, for a segmenter in the given state. -/
def run (s : Segmenter) (cursor : Cursor) : Except ParseError (List Statement) := do
  let tokens ← cursor.tokens
  s.statements tokens

theorem run_move (lines bytes : Nat) (s : Segmenter) (cursor : Cursor) :
    (s.move lines bytes).run (cursor.move lines bytes) =
      lowered lines (List.map (Statement.down lines)) (s.run cursor) := by
  rw [run, run, Cursor.tokens_move]
  apply lowered_bind
  intro tokens
  exact statements_move lines bytes s tokens

/-- White space between statements without comments before it leaves only the news whether a line
has ended. -/
theorem run_blank {w rest : Text} (hw : ∀ c ∈ w, Text.isBlank c = true)
    (hr : Stops Text.isBlank rest) (afterCode : Bool) (offset : Nat) (position : Position) :
    (between [] afterCode).run ⟨w ++ rest, offset, position⟩ =
      (between [] (afterCode && Text.newlines w == 0)).run
        ⟨rest, offset + w.byteSize, position.advance w⟩ := by
  cases w with
  | nil => cases afterCode <;> rfl
  | cons c w =>
    have hs : Spells .whitespace (c :: w) rest :=
      .whitespace (hw c (by simp)) (fun d hd => hw d (by simp [hd])) hr
    have hread := read_whitespace (w := ⟨.whitespace, c :: w, offset, position⟩) rfl [] afterCode
    rw [ite_self] at hread
    rw [run, run, Cursor.tokens_token (Cursor.step_spelled hs offset position)]
    cases Cursor.tokens ⟨rest, _, _⟩ with
    | error e => rfl
    | ok tokens => exact statements_none hread tokens

end Segmenter

theorem segment_before {s : Text} {ss : List Statement} (h : segment s = .ok ss) (rest : Text) :
    segment (s ++ '\n' :: ';' :: rest) =
      ((Segmenter.between [] true).run ⟨rest, Text.byteSize (s ++ ['\n', ';']),
        Position.start.advance (s ++ ['\n', ';'])⟩).map (ss ++ ·) := by
  have hs := spells_mark (c := ';') (by decide) rest
  cases ht : tokenize s .start with
  | error e =>
    rw [segment, ht] at h
    cases h
  | ok ts =>
    rw [segment, ht] at h
    have hn : Stops Text.isBlank (';' :: rest) := Text.stops_cons.mpr (by decide)
    obtain ⟨us, hu, hp⟩ := (tokenize_eq_ok_iff.mp ht).newline hn
    have he : us.flatMap Token.text = s ++ ['\n'] := by
      have hj := hu.text_eq
      rw [List.append_cons] at hj
      exact (List.append_cancel_right hj).symm
    have hj : tokenize (s ++ '\n' :: ';' :: rest) .start = _ := Cursor.tokens_lexes hu
    have hl := Cursor.tokens_token (Cursor.step_spelled hs
      (0 + Text.byteSize (us.flatMap Token.text)) (Position.start.advance (us.flatMap Token.text)))
    have hb : Text.byteSize (s ++ ['\n', ';']) =
        0 + Text.byteSize (us.flatMap Token.text) + Text.byteSize [';'] := by
      rw [he, Nat.zero_add, ← Text.byteSize_append, List.append_assoc]
      rfl
    have ha : Position.start.advance (s ++ ['\n', ';']) =
        (Position.start.advance (us.flatMap Token.text)).advance [';'] := by
      rw [he, ← Position.advance_append, List.append_assoc]
      rfl
    rw [List.singleton_append, ← hb, ← ha] at hl
    rw [segment, hj, hl, Segmenter.run]
    cases Cursor.tokens ⟨rest, _, _⟩ with
    | error e => rfl
    | ok more => exact Segmenter.statements_padded h hp rfl more

/-- What follows a semicolon on the next line is segmented as a text of its own. -/
theorem run_behind {position : Position} {n : Nat} (h : position.next '\n' = Position.start.down n)
    (f : Text) (offset : Nat) :
    (Segmenter.between [] true).run ⟨'\n' :: f, offset, position⟩ =
      lowered n (List.map (Statement.down n)) (segment f) := by
  obtain ⟨w, g, rfl, _, hw, hg⟩ := Text.exists_front Text.isBlank f
  have hn : ∀ c ∈ '\n' :: w, Text.isBlank c = true := by
    intro c hc
    rcases List.mem_cons.mp hc with rfl | hc
    · rfl
    · exact hw c hc
  have hz : (true && Text.newlines ('\n' :: w) == 0) = false := by
    simp [Text.newlines]
  have hc : (⟨g, offset + Text.byteSize ('\n' :: w), position.advance ('\n' :: w)⟩ : Cursor) =
      Cursor.move n (offset + Text.byteSize ['\n'])
        ⟨g, 0 + w.byteSize, Position.start.advance w⟩ := by
    have hw : '\n' :: w = ['\n'] ++ w := rfl
    rw [Cursor.move, Position.advance_cons, h, Position.advance_down, hw, Text.byteSize_append,
      Nat.zero_add, ← Nat.add_assoc, Nat.add_comm (Text.byteSize w)]
  have hf : segment (w ++ g) = (Segmenter.between [] false).run
      ⟨g, 0 + w.byteSize, Position.start.advance w⟩ := Segmenter.run_blank hw hg false 0 .start
  have hb := Segmenter.run_blank hn hg true offset position
  rw [hz, hc] at hb
  rw [hf]
  exact hb.trans (Segmenter.run_move n _ (.between [] false) _)

theorem segment_join {s : Text} {ss : List Statement} (h : segment s = .ok ss) (f : Text) :
    segment (s ++ "\n;\n" ++ f) = lowered (Text.newlines (s ++ "\n;\n"))
      (fun fs => ss ++ fs.map (Statement.down (Text.newlines (s ++ "\n;\n")))) (segment f) := by
  have ht : s ++ "\n;\n" ++ f = s ++ '\n' :: ';' :: '\n' :: f := by simp
  have hp : (Position.start.advance (s ++ ['\n', ';'])).next '\n' =
      Position.start.down (Text.newlines (s ++ "\n;\n")) := by
    have hn : Text.newlines (s ++ "\n;\n") = Text.newlines (s ++ ['\n', ';']) + 1 := by
      simp [Text.newlines]
    rw [Position.next, if_pos rfl, Position.line_advance, Position.down, hn, Nat.add_assoc]
    rfl
  rw [ht, segment_before h, run_behind hp]
  cases segment f <;> rfl

end Bindery

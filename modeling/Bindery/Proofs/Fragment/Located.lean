import Bindery.Proofs.Fragment.TopLevel
import Bindery.Proofs.Text.Cut
import Bindery.Proofs.Token.Lexes

namespace Bindery

def Position.Before (p q : Position) : Prop :=
  p.line < q.line ∨ p.line = q.line ∧ p.column < q.column

namespace Position

theorem before_next (p : Position) (c : Char) : p.Before (p.next c) := by
  rw [next]
  split
  · exact .inl (Nat.lt_succ_self _)
  · exact .inr ⟨rfl, Nat.lt_succ_self _⟩

theorem Before.trans {p q r : Position} (h : p.Before q) (h' : q.Before r) : p.Before r := by
  simp only [Before] at *
  omega

theorem Before.ne {p q : Position} (h : p.Before q) : p ≠ q := by
  rintro rfl
  simp only [Before] at h
  omega

theorem Before.advance {p q : Position} (h : p.Before q) (t : Text) : p.Before (q.advance t) := by
  induction t generalizing q with
  | nil => exact h
  | cons c t ih => exact ih (h.trans (q.before_next c))

end Position

/-- Runs that make up a longer run with a comma between any two. -/
inductive Joined {α : Type} (is : α → Char → Bool) : List (List α) → List α → Prop
  | last {run : List α} : Joined is [run] run
  | comma {run rest : List α} {x : α} {runs : List (List α)} : is x ',' = true →
      Joined is runs rest → Joined is (run :: runs) (run ++ x :: rest)

theorem Joined.ne_nil {α : Type} {is : α → Char → Bool} {runs : List (List α)} {run : List α}
    (h : Joined is runs run) : runs ≠ [] := by
  cases h <;> simp

theorem topRuns_joined {α : Type} {is : α → Char → Bool} (before run : List α) :
    Joined is (topRuns is before run) run := by
  induction run generalizing before with
  | nil => exact .last
  | cons x run ih =>
    rw [topRuns]
    split
    · rename_i hc
      exact .comma hc.1 (ih _)
    · have hj := ih (before ++ [x])
      generalize topRuns is (before ++ [x]) run = runs at hj
      cases hj with
      | last => exact .last
      | comma hc hr => exact .comma hc hr

theorem Joined.text_eq {α : Type} {is : α → Char → Bool} {text : α → Text} {runs : List (List α)}
    {run : List α} (h : Joined is runs run) (hc : ∀ x ∈ run, is x ',' = true → text x = [',']) :
    run.flatMap text = [','].intercalate (runs.map (List.flatMap text)) := by
  induction h with
  | last => simp [List.intercalate_singleton]
  | @comma run rest x runs hx hr ih =>
    have hn : runs.map (List.flatMap text) ≠ [] := by simpa using hr.ne_nil
    rw [List.map_cons, List.intercalate_cons_of_ne_nil hn,
      ← ih fun y hy => hc y (by simp [hy]), List.flatMap_append, List.flatMap_cons,
      hc x (by simp) hx, List.append_assoc]

/-- The trimmed text of a run of tokens, at the place of the first token that is not trimmed. -/
def Fragment.ofRun? (run : List Token) : Option Fragment :=
  (run.find? fun t => !t.isTrivia).map fun first =>
    ⟨Text.trim (run.flatMap Token.text), first.position⟩

/-- The fragments between the commas of a run of tokens at which no bracket is open. -/
def topFragments (tokens : List Token) : List Fragment :=
  (topRuns Token.isSymbol [] tokens).filterMap Fragment.ofRun?

theorem Token.Proper.text_of_isSymbol {t : Token} {c : Char} (ht : t.Proper)
    (h : t.isSymbol c = true) : t.text = [c] := by
  obtain ⟨kind, text, offset, position⟩ := t
  simp only [isSymbol, Bool.and_eq_true, beq_iff_eq] at h
  obtain ⟨rest, hs⟩ := ht
  obtain ⟨rfl, hc⟩ := h
  cases hs with
  | symbol _ =>
    cases hc
    rfl

namespace Fragment

theorem ofPiece?_blank_append {w : Text} (hw : ∀ c ∈ w, Text.isBlank c = true) (here : Position)
    (piece : Text) : ofPiece? here (w ++ piece) = ofPiece? (here.advance w) piece := by
  have hb : Text.isBlankText (w ++ piece) = Text.isBlankText piece := by
    simp [Text.isBlankText, List.all_append, List.all_eq_true.mpr hw]
  have ht : Text.trim (w ++ piece) = Text.trim piece := by
    rw [Text.trim, Text.trimStart, List.dropWhile_append_of_pos hw, Text.trim, Text.trimStart]
  rw [ofPiece?, hb, ht, List.takeWhile_append_of_pos hw, Position.advance_append, ofPiece?]

theorem ofPiece?_of_not_blank {c : Char} (hc : Text.isBlank c = false) (here : Position)
    (piece : Text) : ofPiece? here (c :: piece) = some ⟨Text.trim (c :: piece), here⟩ := by
  simp [ofPiece?, Text.isBlankText, hc]

theorem ofPiece?_tight {t lead trail : Text} (h : t.Tight)
    (hl : ∀ c ∈ lead, Text.isBlank c = true) (ht : ∀ c ∈ trail, Text.isBlank c = true)
    (here : Position) : ofPiece? here (lead ++ (t ++ trail)) = some ⟨t, here.advance lead⟩ := by
  obtain ⟨c, body, hf, hc⟩ := h.first
  have hs : Text.trimStart (t ++ trail) = t ++ trail := by
    rw [hf, Text.trimStart, List.cons_append, List.dropWhile_cons_of_neg (by simp [hc])]
  have he : Text.trimEnd t = t := by
    have htrim := h.trim_eq
    rwa [Text.trim, hf, Text.trimStart, List.dropWhile_cons_of_neg (by simp [hc]), ← hf] at htrim
  have hm : Text.trim (t ++ trail) = t := by
    rw [Text.trim, hs, Text.trimEnd_append_blank ht, he]
  rw [ofPiece?_blank_append hl]
  have ho := ofPiece?_of_not_blank hc (here.advance lead) (body ++ trail)
  rwa [← List.cons_append, ← hf, hm] at ho

theorem ofRun?_blank_cons {t : Token} (hk : t.kind = .whitespace)
    (hw : ∀ c ∈ t.text, Text.isBlank c = true) (run : List Token) :
    ofRun? (t :: run) = ofRun? run := by
  have ht : Text.trim ((t :: run).flatMap Token.text) = Text.trim (run.flatMap Token.text) := by
    rw [Text.trim, List.flatMap_cons, Text.trimStart, List.dropWhile_append_of_pos hw, Text.trim,
      Text.trimStart]
  have hv : t.isTrivia = true := by simp [Token.isTrivia, hk]
  simp only [ofRun?, ht, List.find?_cons, hv, Bool.not_true]

/-- A run of tokens without comments and its text hold the same fragment. -/
theorem ofPiece?_run {tail text : Text} {offset : Nat} {here : Position} {run : List Token}
    (h : Lexes tail offset here text run) (hc : ∀ t ∈ run, t.kind ≠ .comment) :
    ofPiece? here (run.flatMap Token.text) = ofRun? run := by
  induction h with
  | done => rfl
  | @token offset here kind t rest run hs _ ih =>
    by_cases hk : kind = .whitespace
    · subst hk
      have hw : ∀ c ∈ t, Text.isBlank c = true := by
        cases hs with
        | whitespace hb ht _ => simpa [hb] using ht
      rw [List.flatMap_cons, ofPiece?_blank_append hw, ofRun?_blank_cons rfl hw]
      exact ih fun u hu => hc u (by simp [hu])
    · obtain ⟨c, body, rfl, hb⟩ := hs.exists_first hk
      have hv : Token.isTrivia ⟨kind, c :: body, offset, here⟩ = false := by
        have hm := hc ⟨kind, c :: body, offset, here⟩ (by simp)
        simp only [Token.isTrivia, Bool.or_eq_false_iff, beq_eq_false_iff_ne]
        exact ⟨hk, hm⟩
      rw [List.flatMap_cons, List.cons_append, ofPiece?_of_not_blank hb, ofRun?, List.find?_cons,
        hv]
      rfl

theorem ofPieces_runs {tail text : Text} {offset : Nat} {here : Position} {run : List Token}
    {runs : List (List Token)} (hj : Joined Token.isSymbol runs run)
    (h : Lexes tail offset here text run) (hc : ∀ t ∈ run, t.kind ≠ .comment) :
    ofPieces here (runs.map (List.flatMap Token.text)) = runs.filterMap ofRun? := by
  induction hj generalizing offset here text with
  | @last run =>
    rw [List.map_singleton, ofPieces, ofPiece?_run h hc]
    cases ho : ofRun? run <;> simp [ofPieces, ho]
  | @comma run rest t runs ht _ ih =>
    obtain ⟨middle, hr, hm⟩ := h.split
    have htext := (hm.proper t (by simp)).text_of_isSymbol ht
    cases hm with
    | token hs hm =>
      subst htext
      rw [List.map_cons, ofPieces, ofPiece?_run hr fun u hu => hc u (by simp [hu]),
        Position.advance_append, ih hm fun u hu => hc u (by simp [hu])]
      cases ho : ofRun? run <;> simp [ho]

theorem ofPieces_cons (here : Position) (piece : Text) (pieces : List Text) :
    ofPieces here (piece :: pieces) =
      (ofPiece? here piece).toList ++ ofPieces (here.advance (piece ++ [','])) pieces := rfl

theorem ofPieces_append (here : Position) (front back : List Text) :
    ofPieces here (front ++ back) = ofPieces here front ++
      ofPieces (here.advance (front.flatMap (· ++ [',']))) back := by
  induction front generalizing here with
  | nil => rfl
  | cons piece front ih =>
    rw [List.cons_append, ofPieces_cons, ofPieces_cons, ih]
    simp

theorem before_of_mem_ofPieces {p here : Position} (h : p.Before here) (pieces : List Text) :
    ∀ f ∈ ofPieces here pieces, p.Before f.position := by
  induction pieces generalizing here with
  | nil => simp [ofPieces]
  | cons piece pieces ih =>
    intro f hf
    rw [ofPieces_cons, List.mem_append] at hf
    rcases hf with hf | hf
    · rw [ofPiece?] at hf
      split at hf
      · simp at hf
      · simp only [Option.toList_some, List.mem_singleton] at hf
        rw [hf]
        exact h.advance _
    · exact ih (h.advance _) f hf

theorem trim_append_comma_ne {t : Text} (ht : Text.isBlankText t = false) (more : Text) :
    Text.trim (t ++ ',' :: more) ≠ Text.trim t := by
  intro he
  rw [Text.trim, Text.trimStart_append ht, Text.trimEnd_append_cons (by decide), Text.trim] at he
  have hl := congrArg List.length he
  have hs := Text.length_trimEnd_le (Text.trimStart t)
  rw [List.length_append, List.length_cons] at hl
  omega

/-- Fragments tell whether the first piece of a list ends at a comma of the list. -/
theorem ofPieces_ne (here : Position) (piece more : Text) (ps qs : List Text) :
    ofPieces here ((piece ++ ',' :: more) :: qs) ≠ ofPieces here (piece :: ps) := by
  intro he
  cases hb : Text.isBlankText piece with
  | true =>
    have hw : ∀ c ∈ piece, Text.isBlank c = true := List.all_eq_true.mp hb
    have hn : ofPiece? here piece = none := by rw [ofPiece?, if_pos hb]
    rw [ofPieces_cons, ofPiece?_blank_append hw, ofPiece?_of_not_blank (by decide), ofPieces_cons,
      hn] at he
    have hp : (here.advance piece).Before (here.advance (piece ++ [','])) := by
      rw [Position.advance_append]
      exact Position.before_next (here.advance piece) ','
    have hm := before_of_mem_ofPieces hp ps ⟨Text.trim (',' :: more), here.advance piece⟩ (by
      rw [show ofPieces (here.advance (piece ++ [','])) ps = _ from he.symm]
      simp)
    exact hm.ne rfl
  | false =>
    have hx : Text.isBlankText (piece ++ ',' :: more) = false := by
      simp [Text.isBlankText, List.all_append, show Text.isBlank ',' = false from rfl]
    rw [ofPieces_cons, ofPieces_cons, ofPiece?, ofPiece?, hb, hx] at he
    have hf := (List.cons.inj he).1
    exact trim_append_comma_ne hb more (congrArg Fragment.text hf)

def following : List Text → Text
  | [] => []
  | ps => ',' :: [','].intercalate ps

theorem intercalate_cons (piece : Text) (ps : List Text) :
    [','].intercalate (piece :: ps) = piece ++ following ps := by
  cases ps with
  | nil => simp [following]
  | cons p ps => simp [following, List.intercalate_cons_cons]

theorem following_append {ps qs : List Text} {c : Char} {t : Text}
    (h : following ps = c :: t ++ following qs) : c = ',' := by
  cases ps with
  | nil => cases h
  | cons p ps => exact (List.cons.inj h).1.symm

theorem following_injective {ps qs : List Text} (h : following ps = following qs) :
    ps = [] ∧ qs = [] ∨
      ps ≠ [] ∧ qs ≠ [] ∧ [','].intercalate ps = [','].intercalate qs := by
  cases ps with
  | nil =>
    cases qs with
    | nil => exact .inl ⟨rfl, rfl⟩
    | cons q qs => cases h
  | cons p ps =>
    cases qs with
    | nil => cases h
    | cons q qs => exact .inr ⟨by simp, by simp, (List.cons.inj h).2⟩

theorem ofPieces_injective {here : Position} {ps qs : List Text} (hp : ps ≠ []) (hq : qs ≠ [])
    (hj : [','].intercalate ps = [','].intercalate qs)
    (he : ofPieces here ps = ofPieces here qs) : ps = qs := by
  induction ps generalizing here qs with
  | nil => exact absurd rfl hp
  | cons p ps ih =>
    obtain ⟨q, qs, rfl⟩ := List.exists_cons_of_ne_nil hq
    rw [intercalate_cons, intercalate_cons] at hj
    -- One first piece is a front of the other; if it is shorter, a comma of the list ends it.
    have hpq : p = q ∧ following ps = following qs := by
      rcases List.append_eq_append_iff.mp hj with ⟨more, rfl, hf⟩ | ⟨more, rfl, hf⟩
      · cases more with
        | nil => exact ⟨(List.append_nil p).symm, hf⟩
        | cons c more =>
          obtain rfl := following_append hf
          exact absurd he.symm (ofPieces_ne here p more ps qs)
      · cases more with
        | nil => exact ⟨List.append_nil q, hf.symm⟩
        | cons c more =>
          obtain rfl := following_append hf
          exact absurd he (ofPieces_ne here q more qs ps)
    obtain ⟨rfl, hf⟩ := hpq
    have ht := List.append_cancel_left he
    rcases following_injective hf with ⟨rfl, rfl⟩ | ⟨hps, hqs, hx⟩
    · rfl
    · rw [ih hps hqs hx ht]

end Fragment

end Bindery

import Bindery.Proofs.Statement.Groups
import Mathlib.Data.List.Forall2

namespace Bindery

/-- What a token looks like and the line on which it stands. -/
def Token.appearance (t : Token) : TokenKind × Text × Nat :=
  (t.kind, t.text, t.position.line)

/-- The tokens of a run that are no white space and no comments. -/
def codeTokens (run : List Token) : List Token :=
  run.filter fun t => !t.isTrivia

theorem codeTokens_append (run rest : List Token) :
    codeTokens (run ++ rest) = codeTokens run ++ codeTokens rest :=
  List.filter_append run rest

theorem codeTokens_cons_of_code {t : Token} (h : t.isTrivia = false) (run : List Token) :
    codeTokens (t :: run) = t :: codeTokens run := by
  simp [codeTokens, h]

theorem codeTokens_cons_of_trivia {t : Token} (h : t.isTrivia = true) (run : List Token) :
    codeTokens (t :: run) = codeTokens run := by
  simp [codeTokens, h]

theorem codeTokens_of_trivia {run : List Token} (h : ∀ t ∈ run, t.isTrivia = true) :
    codeTokens run = [] := by
  rw [codeTokens, List.filter_eq_nil_iff]
  intro t ht
  simp [h t ht]

/-- A text agrees with its blanked form up to the first comment, which becomes white space. -/
theorem Lexes.agrees {tail text : Text} {offset : Nat} {position : Position} {ts : List Token}
    (h : Lexes tail offset position text ts) :
    AgreesToBreak text (ts.flatMap Pending.blanked) := by
  induction h with
  | done => exact .stop (Text.stops_nil _)
  | @token offset position kind t rest ts hs hx ih =>
    by_cases hc : kind = .comment
    · apply AgreesToBreak.stop
      rw [List.flatMap_cons, Pending.blanked, if_pos hc, List.cons_append, Text.stops_cons]
      decide
    · rw [List.flatMap_cons, Pending.blanked, if_neg hc]
      exact ih.append t

/-- White space before a text adds no token of code. -/
theorem Lexes.skip {text w : Text} {offset : Nat} {position : Position} {ts : List Token}
    (hw : ∀ c ∈ w, Text.isBlank c = true)
    (h : Lexes [] (offset + w.byteSize) (position.advance w) text ts) :
    ∃ us, Lexes [] offset position (w ++ text) us ∧ codeTokens us = codeTokens ts := by
  cases w with
  | nil => exact ⟨ts, by simpa [Text.byteSize] using h, rfl⟩
  | cons c w =>
    have hc : Text.isBlank c = true := hw c (by simp)
    have hb : ∀ d ∈ w, Text.isBlank d = true := fun d hd => hw d (by simp [hd])
    have h' := h
    cases h' with
    | done =>
      exact ⟨_, .token (.whitespace hc hb (Text.stops_nil _)) h, codeTokens_cons_of_trivia rfl _⟩
    | @token _ _ kind t rest ts hs hx =>
      by_cases hk : kind = .whitespace
      · subst hk
        cases hs with
        | @whitespace d t _ hd ht hr =>
          have hm : Spells .whitespace (c :: (w ++ d :: t)) rest := by
            refine .whitespace hc ?_ hr
            intro e he
            rcases List.mem_append.mp he with he | he
            · exact hb e he
            · rcases List.mem_cons.mp he with rfl | he
              · exact hd
              · exact ht e he
          have hx' : Lexes [] (offset + Text.byteSize (c :: (w ++ d :: t)))
              (position.advance (c :: (w ++ d :: t))) rest ts := by
            simpa [Text.byteSize, Text.byteSize_append, Nat.add_assoc] using hx
          refine ⟨⟨.whitespace, c :: (w ++ d :: t), offset, position⟩ :: ts, ?_, ?_⟩
          · simpa using Lexes.token hm hx'
          · rw [codeTokens_cons_of_trivia rfl, codeTokens_cons_of_trivia rfl]
      · obtain ⟨d, body, rfl, hd⟩ := hs.exists_first hk
        have hr : Text.Stops Text.isBlank (d :: body ++ rest) := by simpa using hd
        exact ⟨_, .token (.whitespace hc hb hr) h, codeTokens_cons_of_trivia rfl _⟩

theorem Pending.newlines_blanked (t : Token) :
    Text.newlines (blanked t) = Text.newlines t.text := by
  unfold blanked
  split
  · simp [Text.newlines]
  · rfl

/-- The blanked text of a run has the run's code again, on the same lines. -/
theorem Lexes.blanked {tail text : Text} {offset : Nat} {position : Position} {ts : List Token}
    (h : Lexes tail offset position text ts) (offset' : Nat) {position' : Position}
    (hl : position'.line = position.line) :
    ∃ again, Lexes [] offset' position' (ts.flatMap Pending.blanked) again ∧
      (codeTokens again).map Token.appearance = (codeTokens ts).map Token.appearance := by
  induction h generalizing offset' position' with
  | done => exact ⟨[], .done, rfl⟩
  | @token offset position kind t rest ts hs hx ih =>
    rw [List.flatMap_cons]
    cases ht : Token.isTrivia ⟨kind, t, offset, position⟩ with
    | true =>
      have hw := Pending.blanked_of_trivia ht ⟨rest, hs⟩
      have hn := Pending.newlines_blanked ⟨kind, t, offset, position⟩
      generalize Pending.blanked ⟨kind, t, offset, position⟩ = w at hw hn ⊢
      have hl' : (position'.advance w).line = (position.advance t).line := by
        rw [Position.line_advance, Position.line_advance, hl, hn]
      obtain ⟨again, ha, he⟩ := ih (offset' + w.byteSize) hl'
      obtain ⟨us, hu, hc⟩ := Lexes.skip hw ha
      refine ⟨us, hu, ?_⟩
      rw [hc, he, codeTokens_cons_of_trivia ht]
    | false =>
      have hk := ht
      simp only [Token.isTrivia, Bool.or_eq_false_iff, beq_eq_false_iff_ne, ne_eq] at hk
      have hl' : (position'.advance t).line = (position.advance t).line := by
        rw [Position.line_advance, Position.line_advance, hl]
      obtain ⟨again, ha, he⟩ := ih (offset' + t.byteSize) hl'
      rw [Pending.blanked_of_code ht]
      refine ⟨_, .token (hs.agrees hk.1 hk.2 hx.agrees) ha, ?_⟩
      have ht' : Token.isTrivia ⟨kind, t, offset', position'⟩ = false := ht
      rw [codeTokens_cons_of_code ht, codeTokens_cons_of_code ht', List.map_cons, List.map_cons, he]
      simp [Token.appearance, hl]

theorem exists_group_context {tokens group : List Token} (h : group ∈ statementGroups tokens) :
    ∃ before after, tokens = before ++ group ++ after := by
  induction hn : tokens.length using Nat.strongRecOn generalizing tokens with
  | ind n ih =>
    rcases exists_semicolon tokens with hs | ⟨g, t, rest, rfl, hg, ht⟩
    · rw [statementGroups_of_forall hs] at h
      split at h
      · rw [List.mem_singleton.mp h]
        exact ⟨[], [], by simp⟩
      · cases h
    · have hr : group = g ∨ group ∈ statementGroups rest := by
        rw [statementGroups_append hg ht] at h
        split at h
        · exact List.mem_cons.mp h
        · exact .inr h
      rcases hr with rfl | hr
      · exact ⟨[], t :: rest, by simp⟩
      · have hlt : rest.length < n := by
          rw [← hn]
          simp
          omega
        obtain ⟨before, after, rfl⟩ := ih _ hlt hr rfl
        exact ⟨g ++ t :: before, after, by simp⟩

theorem code_of_group {tokens group : List Token} (h : group ∈ statementGroups tokens) :
    ∃ t ∈ group, t.isTrivia = false := by
  simpa using (List.mem_filter.mp h).2

theorem exists_code_context {group : List Token} (h : ∃ t ∈ group, t.isTrivia = false) :
    ∃ lead first more trail, codeOf group = first :: more ∧ group = lead ++ codeOf group ++ trail ∧
      (∀ t ∈ lead, t.isTrivia = true) ∧ (∀ t ∈ trail, t.isTrivia = true) ∧
      (group.find? fun t => !t.isTrivia) = some first := by
  obtain ⟨lead, first, run, hg, hl, hf, hd, hx⟩ := exists_first_code h
  have hr : ∃ t ∈ first :: run, t.isTrivia = false := ⟨first, by simp, hf⟩
  obtain ⟨front, last, back, he, _, hb, hc⟩ := exists_last_code hr
  have hcode : codeOf group = front ++ [last] := by rw [codeOf, hd, hc]
  have hfirst : ∃ more, front ++ [last] = first :: more := by
    cases front with
    | nil => exact ⟨[], by rw [(List.cons.inj he).1]; rfl⟩
    | cons t front => exact ⟨front ++ [last], by rw [(List.cons.inj he).1]; rfl⟩
  obtain ⟨more, hm⟩ := hfirst
  refine ⟨lead, first, more, back, hcode.trans hm, ?_, hl, hb, hx⟩
  rw [hcode, hg, he]
  simp

theorem Lexes.group {source : Text} {origin : Position} {tokens group : List Token}
    (h : Lexes [] 0 origin source tokens) (hg : group ∈ statementGroups tokens) :
    ∃ tail offset position text, Lexes tail offset position text (codeOf group) ∧
      (group.find? fun t => !t.isTrivia).map Token.position = some position := by
  obtain ⟨before, after, rfl⟩ := exists_group_context hg
  obtain ⟨lead, first, more, trail, hc, he, _, _, hx⟩ := exists_code_context (code_of_group hg)
  have ht : before ++ group ++ after = before ++ lead ++ (codeOf group ++ (trail ++ after)) := by
    nth_rewrite 1 [he]
    simp
  rw [ht] at h
  obtain ⟨middle, _, hm⟩ := h.split
  obtain ⟨tail, hr, _⟩ := hm.split
  refine ⟨tail, _, _, middle, hr, ?_⟩
  rw [hx]
  rw [hc] at hr
  cases hr with
  | token => rfl

theorem codeTokens_codeOf {group : List Token} (h : ∃ t ∈ group, t.isTrivia = false) :
    codeTokens (codeOf group) = codeTokens group := by
  obtain ⟨lead, _, _, trail, _, he, hl, ht, _⟩ := exists_code_context h
  have hg := congrArg codeTokens he
  rw [codeTokens_append, codeTokens_append, codeTokens_of_trivia hl, codeTokens_of_trivia ht] at hg
  simpa using hg.symm

/-- Reading the statement again gives the code of the group: its kinds, its texts, its lines. -/
def Rereads (group : List Token) (s : Statement) : Prop :=
  ∃ again, significantTokens s.text s.position = .ok again ∧
    again.map Token.appearance = (codeTokens group).map Token.appearance

theorem IsStatement.rereads {source : Text} {origin : Position} {tokens group : List Token}
    {s : Statement} (hs : IsStatement group s) (h : Lexes [] 0 origin source tokens)
    (hg : group ∈ statementGroups tokens) : Rereads group s := by
  obtain ⟨tail, offset, position, text, hx, hp⟩ := h.group hg
  have hpos : s.position = position := Option.some.inj (hs.position.symm.trans hp)
  obtain ⟨again, ha, he⟩ := hx.blanked 0 (congrArg Position.line hpos)
  refine ⟨codeTokens again, ?_, ?_⟩
  · rw [significantTokens, hs.text, tokenize_eq_ok_iff.mpr ha]
    rfl
  · rw [he, codeTokens_codeOf (code_of_group hg)]

/--
Every statement of a source reads, from its place on, into the tokens of code of its group, with the
same kinds, the same texts and the same lines.
-/
theorem segment_reread {source : Text} {statements : List Statement}
    (h : segment source = .ok statements) :
    ∃ tokens, tokenize source .start = .ok tokens ∧
      List.Forall₂ Rereads (statementGroups tokens) statements := by
  cases ht : tokenize source .start with
  | error error =>
    rw [segment, ht] at h
    cases h
  | ok tokens =>
    have ho := outcome_segment ht
    rw [h] at ho
    have hm := (List.forall₂_and_left _ _).mpr ⟨fun group hg => hg, ho.ok.1⟩
    refine ⟨tokens, rfl, hm.imp ?_⟩
    intro group s hs
    exact hs.2.rereads (tokenize_eq_ok_iff.mp ht) hs.1

theorem segment_reread_behind_comments :
    segment "a/*\n*/$1--$\n$;E'\\''/**/b".toList = .ok
      [⟨"a \n$1 \n$".toList, ⟨1, 1⟩, none⟩, ⟨"E'\\'' b".toList, ⟨3, 3⟩, none⟩] ∧
    ∃ tokens, tokenize "a/*\n*/$1--$\n$;E'\\''/**/b".toList .start = .ok tokens ∧
      List.Forall₂ Rereads (statementGroups tokens)
        [⟨"a \n$1 \n$".toList, ⟨1, 1⟩, none⟩, ⟨"E'\\'' b".toList, ⟨3, 3⟩, none⟩] := by
  have h : segment "a/*\n*/$1--$\n$;E'\\''/**/b".toList = .ok
      [⟨"a \n$1 \n$".toList, ⟨1, 1⟩, none⟩, ⟨"E'\\'' b".toList, ⟨3, 3⟩, none⟩] := by
    decide +kernel
  exact ⟨h, segment_reread h⟩

end Bindery

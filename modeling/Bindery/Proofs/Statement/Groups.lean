import Bindery.Proofs.Nesting
import Bindery.Proofs.Token.Kinds
import Bindery.Proofs.Token.Lexes
import Bindery.Statement.Segment
import Mathlib.Data.List.Basic

namespace Bindery

/-- The groups of tokens between semicolons that hold more than white space and comments. -/
def statementGroups (tokens : List Token) : List (List Token) :=
  (tokens.splitOnP fun t => t.isSymbol ';').filter fun g => g.any fun t => !t.isTrivia

/-- A group from its first token of code to its last. -/
def codeOf (group : List Token) : List Token :=
  ((group.dropWhile Token.isTrivia).reverse.dropWhile Token.isTrivia).reverse

/-- The statement that a group makes: its code with the comments blanked, at its first token. -/
structure IsStatement (group : List Token) (s : Statement) : Prop where
  text : s.text = (codeOf group).flatMap Pending.blanked
  position : (group.find? fun t => !t.isTrivia).map Token.position = some s.position

/-- The place at which the parentheses of a group fail. -/
inductive FailsAt (group : List Token) : Position → Prop
  | overclosed {front back : List Token} {t : Token} : group = front ++ t :: back →
      Balanced Token.isSymbol '(' ')' front → t.isSymbol ')' = true → FailsAt group t.position
  | leftOpen {first : Token} :
      (∀ front back, group = front ++ back → 0 ≤ excess Token.isSymbol '(' ')' front) →
      0 < excess Token.isSymbol '(' ')' group →
      (group.find? fun t => !t.isTrivia) = some first → FailsAt group first.position

/-- What comes of a list of groups: a statement for each, or the failure of the first that fails. -/
inductive Outcome : List (List Token) → Except ParseError (List Statement) → Prop
  | nil : Outcome [] (.ok [])
  | statement {g : List Token} {gs : List (List Token)} {s : Statement} {ss : List Statement} :
      Balanced Token.isSymbol '(' ')' g → IsStatement g s → Outcome gs (.ok ss) →
      Outcome (g :: gs) (.ok (s :: ss))
  | fails {g : List Token} {gs : List (List Token)} {place : Position} {quoted : Text} :
      FailsAt g place → Outcome (g :: gs) (.error (.unbalanced place quoted))
  | later {g : List Token} {gs : List (List Token)} {error : ParseError} :
      Balanced Token.isSymbol '(' ')' g → Outcome gs (.error error) →
      Outcome (g :: gs) (.error error)

namespace Pending

theorem read_ok {p : Pending} {t : Token} {d : Nat}
    (h : depthAfter? Token.isSymbol '(' ')' p.depth [t] = some d) :
    p.read t = .ok { p with tokens := t :: p.tokens, depth := d } := by
  simp only [depthAfter?] at h
  unfold read
  split at h
  · rename_i ho
    cases h
    rw [if_pos ho]
  · rename_i ho
    split at h
    · rename_i hc
      split at h
      · cases h
      · rename_i hz
        cases h
        rw [if_neg ho, if_pos hc, if_neg hz]
    · rename_i hc
      cases h
      rw [if_neg ho, if_neg hc]

theorem read_overclosing {p : Pending} {t : Token} (hd : p.depth = 0)
    (ho : t.isSymbol '(' = false) (hc : t.isSymbol ')' = true) :
    ∃ quoted, p.read t = .error (.unbalanced t.position quoted) := by
  refine ⟨snippet (source { p with tokens := t :: p.tokens }), ?_⟩
  simp only [read, ho, hc, hd, Bool.false_eq_true, ite_false, ite_true]

end Pending

namespace Segmenter

theorem statements_none {s next : Segmenter} {t : Token} (h : s.read t = .ok (next, none))
    (rest : List Token) : s.statements (t :: rest) = next.statements rest := by
  rw [statements, h]
  change (do let more ← next.statements rest; pure ([] ++ more)) = _
  cases next.statements rest <;> rfl

theorem statements_some {s next : Segmenter} {t : Token} {statement : Statement}
    (h : s.read t = .ok (next, some statement)) (rest : List Token) :
    s.statements (t :: rest) = (next.statements rest).map (statement :: ·) := by
  rw [statements, h]
  change (do let more ← next.statements rest; pure ([statement] ++ more)) = _
  cases next.statements rest <;> rfl

theorem statements_error {s : Segmenter} {t : Token} {error : ParseError}
    (h : s.read t = .error error) (rest : List Token) :
    s.statements (t :: rest) = .error error := by
  rw [statements, h]
  rfl

theorem read_inside {p q : Pending} {t : Token} (hs : t.isSymbol ';' = false)
    (h : p.read t = .ok q) : (inside p).read t = .ok (inside q, none) := by
  simp only [read, hs, h]
  rfl

/-- A pending statement reads a whole run of tokens as long as its parentheses match. -/
theorem statements_inside {p : Pending} {run : List Token} {d : Nat}
    (hs : ∀ t ∈ run, t.isSymbol ';' = false)
    (h : depthAfter? Token.isSymbol '(' ')' p.depth run = some d) (rest : List Token) :
    (inside p).statements (run ++ rest) =
      (inside { p with tokens := run.reverse ++ p.tokens, depth := d }).statements rest := by
  induction run generalizing p with
  | nil =>
    cases h
    rfl
  | cons t run ih =>
    have ht : t :: run = [t] ++ run := rfl
    rw [ht, depthAfter?_append] at h
    obtain ⟨e, he, hd⟩ := Option.bind_eq_some_iff.mp h
    have hr := read_inside (hs t (by simp)) (Pending.read_ok he)
    rw [List.cons_append, statements_none hr, ih (fun u hu => hs u (by simp [hu])) hd]
    simp

/-- A pending statement fails at the first parenthesis that closes too much. -/
theorem statements_overclosed {p : Pending} {run : List Token}
    (hs : ∀ t ∈ run, t.isSymbol ';' = false)
    (h : depthAfter? Token.isSymbol '(' ')' p.depth run = none) (rest : List Token) :
    ∃ front t back quoted, run = front ++ t :: back ∧ t.isSymbol ')' = true ∧
      depthAfter? Token.isSymbol '(' ')' p.depth front = some 0 ∧
      (inside p).statements (run ++ rest) = .error (.unbalanced t.position quoted) := by
  obtain ⟨front, t, back, rfl, hc, ho, hd⟩ := exists_overclosing h
  have hf : ∀ u ∈ front, u.isSymbol ';' = false := fun u hu => hs u (by simp [hu])
  obtain ⟨quoted, hq⟩ := Pending.read_overclosing
    (p := { p with tokens := front.reverse ++ p.tokens, depth := 0 }) rfl ho hc
  refine ⟨front, t, back, quoted, rfl, hc, hd, ?_⟩
  rw [List.append_assoc, statements_inside hf hd, List.cons_append]
  apply statements_error
  simp only [read, hs t (by simp), hq]
  rfl

theorem statements_trivia {lead : List Token} (h : ∀ t ∈ lead, t.isTrivia = true)
    (comments : List Text) (afterCode : Bool) (rest : List Token) :
    ∃ comments' afterCode', (between comments afterCode).statements (lead ++ rest) =
      (between comments' afterCode').statements rest := by
  induction lead generalizing comments afterCode with
  | nil => exact ⟨comments, afterCode, rfl⟩
  | cons t lead ih =>
    have ht := h t (by simp)
    simp only [Token.isTrivia, Bool.or_eq_true, beq_iff_eq] at ht
    have hr : ∃ comments' afterCode', (between comments afterCode).read t =
        .ok (between comments' afterCode', none) := by
      rcases ht with ht | ht
      · exact ⟨_, _, by rw [read, if_pos ht]⟩
      · exact ⟨_, _, by rw [read, if_neg (by simp [ht]), if_pos ht]⟩
    obtain ⟨comments', afterCode', hr⟩ := hr
    rw [List.cons_append, statements_none hr]
    exact ih (fun u hu => h u (by simp [hu])) comments' afterCode'

theorem statements_first {t : Token} (h : t.isTrivia = false) (hs : t.isSymbol ';' = false)
    (comments : List Text) (afterCode : Bool) (rest : List Token) :
    (between comments afterCode).statements (t :: rest) =
      (inside (Pending.start t comments)).statements (t :: rest) := by
  simp only [Token.isTrivia, Bool.or_eq_false_iff, beq_eq_false_iff_ne, ne_eq] at h
  simp only [statements, read, h.1, h.2, hs, ite_false, Bool.false_eq_true]

theorem statements_semicolon {t : Token} (h : t.isSymbol ';' = true) (comments : List Text)
    (afterCode : Bool) (rest : List Token) :
    (between comments afterCode).statements (t :: rest) = (between [] true).statements rest := by
  have hk : t.kind = .symbol := by
    simp only [Token.isSymbol, Bool.and_eq_true, beq_iff_eq] at h
    exact h.1
  apply statements_none
  simp [read, hk, h]

end Segmenter

theorem Pending.finish_closed {p : Pending} (h : p.depth = 0) (ending : Text) :
    p.finish ending = .ok ⟨Text.trimEnd p.text, p.position, p.doc⟩ := by
  simp [finish, h]

theorem Pending.finish_open {p : Pending} (h : 0 < p.depth) (ending : Text) :
    ∃ quoted, p.finish ending = .error (.unbalanced p.position quoted) :=
  ⟨_, by rw [finish, if_pos h]⟩

/-- A run with code begins with white space and comments and then its first token of code. -/
theorem exists_first_code {run : List Token} (h : ∃ t ∈ run, t.isTrivia = false) :
    ∃ lead first more, run = lead ++ first :: more ∧ (∀ t ∈ lead, t.isTrivia = true) ∧
      first.isTrivia = false ∧ run.dropWhile Token.isTrivia = first :: more ∧
      (run.find? fun t => !t.isTrivia) = some first := by
  induction run with
  | nil =>
    obtain ⟨t, ht, _⟩ := h
    cases ht
  | cons t run ih =>
    cases ht : t.isTrivia with
    | true =>
      have hr : ∃ u ∈ run, u.isTrivia = false := by
        obtain ⟨u, hu, hc⟩ := h
        rcases List.mem_cons.mp hu with rfl | hu
        · rw [ht] at hc
          cases hc
        · exact ⟨u, hu, hc⟩
      obtain ⟨lead, first, more, rfl, hl, hf, hd, hx⟩ := ih hr
      refine ⟨t :: lead, first, more, rfl, ?_, hf, by simp [ht, hd], by simp [ht, hx]⟩
      intro u hu
      rcases List.mem_cons.mp hu with rfl | hu
      · exact ht
      · exact hl u hu
    | false => exact ⟨[], t, run, rfl, by simp, ht, by simp [ht], by simp [ht]⟩

/-- A run with code ends in its last token of code and then white space and comments. -/
theorem exists_last_code {run : List Token} (h : ∃ t ∈ run, t.isTrivia = false) :
    ∃ front t back, run = front ++ t :: back ∧ t.isTrivia = false ∧
      (∀ u ∈ back, u.isTrivia = true) ∧
      (run.reverse.dropWhile Token.isTrivia).reverse = front ++ [t] := by
  have hr : ∃ t ∈ run.reverse, t.isTrivia = false := by simpa using h
  obtain ⟨lead, t, more, he, hl, ht, hd, _⟩ := exists_first_code hr
  refine ⟨more.reverse, t, lead.reverse, ?_, ht, by simpa using hl, by simp [hd]⟩
  rw [← List.reverse_reverse run, he]
  simp

theorem Pending.blanked_of_code {t : Token} (h : t.isTrivia = false) : blanked t = t.text := by
  simp only [Token.isTrivia, Bool.or_eq_false_iff, beq_eq_false_iff_ne, ne_eq] at h
  rw [blanked, if_neg h.2]

theorem Pending.blanked_of_trivia {t : Token} (h : t.isTrivia = true) (hp : t.Proper) :
    ∀ c ∈ blanked t, Text.isBlank c = true := by
  obtain ⟨rest, hs⟩ := hp
  obtain ⟨kind, text, offset, position⟩ := t
  simp only [Token.isTrivia, Bool.or_eq_true, beq_iff_eq] at h
  rcases h with rfl | rfl
  · cases hs with
    | whitespace hc ht _ => simpa [blanked, hc] using ht
  · intro c hc
    simp only [blanked, ite_true, List.mem_cons, List.mem_replicate] at hc
    rcases hc with rfl | ⟨_, rfl⟩ <;> decide

theorem trimEnd_blanked {first : Token} {more : List Token} (hf : first.isTrivia = false)
    (hp : ∀ t ∈ first :: more, t.Proper) :
    Text.trimEnd ((first :: more).flatMap Pending.blanked) =
      ((first :: more).reverse.dropWhile Token.isTrivia).reverse.flatMap Pending.blanked := by
  have hx : ∃ t ∈ first :: more, t.isTrivia = false := ⟨first, by simp, hf⟩
  obtain ⟨front, t, back, hr, ht, hb, hd⟩ := exists_last_code hx
  rw [hd, hr]
  rw [hr] at hp
  obtain ⟨rest, hs⟩ := hp t (by simp)
  have hk := ht
  simp only [Token.isTrivia, Bool.or_eq_false_iff, beq_eq_false_iff_ne, ne_eq] at hk
  obtain ⟨text, c, hc, hn⟩ := hs.exists_last hk.1 hk.2
  have hblank : ∀ d ∈ back.flatMap Pending.blanked, Text.isBlank d = true := by
    intro d hd
    obtain ⟨u, hu, hd⟩ := List.mem_flatMap.mp hd
    exact Pending.blanked_of_trivia (hb u hu) (hp u (by simp [hu])) d hd
  have he : (front ++ t :: back).flatMap Pending.blanked =
      front.flatMap Pending.blanked ++ text ++ [c] ++ back.flatMap Pending.blanked := by
    simp [Pending.blanked_of_code ht, hc]
  rw [he, Text.trimEnd_append_blank hblank, Text.trimEnd_append_cons hn]
  simp [Pending.blanked_of_code ht, hc, Text.trimEnd]

/-- How a pending statement goes on at the end of its group; `more` is what follows the group. -/
structure EndsGroup (ending : List Token) (more : Except ParseError (List Statement)) : Prop where
  closed : ∀ p : Pending, p.depth = 0 → (Segmenter.inside p).statements ending =
    more.map (⟨Text.trimEnd p.text, p.position, p.doc⟩ :: ·)
  opened : ∀ p : Pending, 0 < p.depth →
    ∃ quoted, (Segmenter.inside p).statements ending = .error (.unbalanced p.position quoted)

theorem endsGroup_nil : EndsGroup [] (.ok []) := by
  constructor
  · intro p hp
    rw [Segmenter.statements, Pending.finish_closed hp]
    rfl
  · intro p hp
    obtain ⟨quoted, hq⟩ := Pending.finish_open hp []
    refine ⟨quoted, ?_⟩
    rw [Segmenter.statements, hq]
    rfl

theorem endsGroup_semicolon {t : Token} (h : t.isSymbol ';' = true) (rest : List Token) :
    EndsGroup (t :: rest) ((Segmenter.between [] true).statements rest) := by
  constructor
  · intro p hp
    apply Segmenter.statements_some
    rw [Segmenter.read, if_pos h, Pending.finish_closed hp]
    rfl
  · intro p hp
    obtain ⟨quoted, hq⟩ := Pending.finish_open hp t.text
    refine ⟨quoted, Segmenter.statements_error ?_ rest⟩
    rw [Segmenter.read, if_pos h, hq]
    rfl

theorem balanced_parens_iff {run : List Token} : Balanced Token.isSymbol '(' ')' run ↔
    depthAfter? Token.isSymbol '(' ')' 0 run = some 0 :=
  balanced_iff Token.isSymbol_unambiguous (by decide)

theorem depthAfter?_trivia {lead : List Token} (h : ∀ t ∈ lead, t.isTrivia = true)
    (run : List Token) : depthAfter? Token.isSymbol '(' ')' 0 (lead ++ run) =
      depthAfter? Token.isSymbol '(' ')' 0 run := by
  rw [depthAfter?_append, depthAfter?_of_not_bracket]
  · rfl
  · intro t ht
    exact ⟨Token.isSymbol_of_trivia (h t ht) _, Token.isSymbol_of_trivia (h t ht) _⟩

theorem outcome_group {group ending : List Token} {gs : List (List Token)}
    {more : Except ParseError (List Statement)} (hs : ∀ t ∈ group, t.isSymbol ';' = false)
    (hp : ∀ t ∈ group, t.Proper) (hc : ∃ t ∈ group, t.isTrivia = false)
    (he : EndsGroup ending more) (ho : Outcome gs more) (comments : List Text)
    (afterCode : Bool) :
    Outcome (group :: gs)
      ((Segmenter.between comments afterCode).statements (group ++ ending)) := by
  obtain ⟨lead, first, run, rfl, hl, hf, hd, hx⟩ := exists_first_code hc
  have hr : ∀ t ∈ first :: run, t.isSymbol ';' = false :=
    fun t ht => hs t (List.mem_append_right lead ht)
  have hdepth := depthAfter?_trivia hl (first :: run)
  obtain ⟨comments', afterCode', hb⟩ :=
    Segmenter.statements_trivia hl comments afterCode (first :: run ++ ending)
  rw [List.append_assoc, hb, List.cons_append,
    Segmenter.statements_first hf (hr first (by simp)), ← List.cons_append]
  cases hn : depthAfter? Token.isSymbol '(' ')' 0 (first :: run) with
  | none =>
    obtain ⟨front, t, back, quoted, hrun, ht, hz, hq⟩ :=
      Segmenter.statements_overclosed (p := Pending.start first comments') hr hn ending
    have hg : lead ++ first :: run = lead ++ front ++ t :: back := by simp [hrun]
    rw [hq]
    refine .fails (.overclosed hg ?_ ht)
    rw [balanced_parens_iff, depthAfter?_trivia hl]
    exact hz
  | some d =>
    rw [Segmenter.statements_inside (p := Pending.start first comments') hr hn]
    cases d with
    | zero =>
      rw [he.closed _ rfl]
      have hg : Balanced Token.isSymbol '(' ')' (lead ++ first :: run) := by
        rw [balanced_parens_iff, hdepth, hn]
      cases more with
      | error error => exact .later hg ho
      | ok ss =>
        refine .statement hg ⟨?_, ?_⟩ ho
        · have ht := trimEnd_blanked hf fun t ht => hp t (List.mem_append_right lead ht)
          simpa [Pending.text, Pending.start, codeOf, hd] using ht
        · rw [hx]
          rfl
    | succ d =>
      obtain ⟨quoted, hq⟩ := he.opened
        { Pending.start first comments' with
          tokens := (first :: run).reverse ++ (Pending.start first comments').tokens
          depth := d + 1 } (Nat.succ_pos d)
      rw [hq]
      have hu := Token.isSymbol_unambiguous
      rw [← hdepth] at hn
      refine .fails (.leftOpen ?_ ?_ hx)
      · intro front back hfb
        have hf := (depthAfter?_isSome_iff hu (by decide)).mp ⟨_, hn⟩ front back hfb
        omega
      · have hex := depthAfter?_eq_excess hu (by decide) hn
        omega

theorem exists_semicolon (tokens : List Token) :
    (∀ t ∈ tokens, t.isSymbol ';' = false) ∨
      ∃ group t rest, tokens = group ++ t :: rest ∧ (∀ u ∈ group, u.isSymbol ';' = false) ∧
        t.isSymbol ';' = true := by
  induction tokens with
  | nil => simp
  | cons t tokens ih =>
    cases ht : t.isSymbol ';' with
    | true => exact .inr ⟨[], t, tokens, rfl, by simp, ht⟩
    | false =>
      rcases ih with ih | ⟨group, u, rest, rfl, hg, hu⟩
      · exact .inl (by simpa [ht] using ih)
      · exact .inr ⟨t :: group, u, rest, rfl, by simpa [ht] using hg, hu⟩

theorem statementGroups_of_forall {tokens : List Token}
    (h : ∀ t ∈ tokens, t.isSymbol ';' = false) :
    statementGroups tokens = if tokens.any (fun t => !t.isTrivia) then [tokens] else [] := by
  rw [statementGroups, List.splitOnP_eq_singleton h]
  simp [List.filter_cons]

theorem statementGroups_append {group rest : List Token} {t : Token}
    (hg : ∀ u ∈ group, u.isSymbol ';' = false) (ht : t.isSymbol ';' = true) :
    statementGroups (group ++ t :: rest) =
      if group.any (fun t => !t.isTrivia) then group :: statementGroups rest
      else statementGroups rest := by
  rw [statementGroups, List.splitOnP_append_cons_of_forall_mem hg t ht, statementGroups]
  simp [List.filter_cons]

/-- The segmenter makes of every list of tokens what comes of its groups. -/
theorem outcome_statements {tokens : List Token} (hp : ∀ t ∈ tokens, t.Proper)
    (comments : List Text) (afterCode : Bool) :
    Outcome (statementGroups tokens)
      ((Segmenter.between comments afterCode).statements tokens) := by
  -- Each semicolon leaves fewer tokens; the state between statements is always the same behind it.
  induction hn : tokens.length using Nat.strongRecOn generalizing tokens comments afterCode with
  | ind n ih =>
    rcases exists_semicolon tokens with hs | ⟨group, t, rest, rfl, hg, ht⟩
    · rw [statementGroups_of_forall hs]
      split
      · rename_i hc
        have ho := outcome_group hs hp (by simpa using hc) endsGroup_nil .nil comments afterCode
        simpa using ho
      · rename_i hc
        have hl : ∀ t ∈ tokens, t.isTrivia = true := by simpa using hc
        obtain ⟨comments', afterCode', hb⟩ :=
          Segmenter.statements_trivia hl comments afterCode []
        rw [List.append_nil] at hb
        rw [hb]
        exact .nil
    · have hlt : rest.length < n := by
        rw [← hn]
        simp
        omega
      have hr := fun comments afterCode =>
        ih _ hlt (fun u hu => hp u (by simp [hu])) comments afterCode rfl
      rw [statementGroups_append hg ht]
      split
      · rename_i hc
        exact outcome_group hg (fun u hu => hp u (by simp [hu])) (by simpa using hc)
          (endsGroup_semicolon ht rest) (hr [] true) comments afterCode
      · rename_i hc
        have hl : ∀ u ∈ group, u.isTrivia = true := by simpa using hc
        obtain ⟨comments', afterCode', hb⟩ :=
          Segmenter.statements_trivia hl comments afterCode (t :: rest)
        rw [hb, Segmenter.statements_semicolon ht]
        exact hr [] true

theorem FailsAt.not_balanced {group : List Token} {place : Position} (h : FailsAt group place) :
    ¬ Balanced Token.isSymbol '(' ')' group := by
  intro hb
  cases h with
  | @overclosed front back t hg hf ht =>
    have ho : t.isSymbol '(' = false := by
      rw [Bool.eq_false_iff]
      intro ho
      exact absurd (Token.isSymbol_unambiguous t _ _ ho ht) (by decide)
    have hn := hb.fronts (front ++ [t]) back (by simp [hg])
    rw [excess_append, hf.whole, excess_cons] at hn
    simp [ho, ht] at hn
  | leftOpen _ hx _ =>
    have hw := hb.whole
    omega

theorem Outcome.ok {gs : List (List Token)} {ss : List Statement} (h : Outcome gs (.ok ss)) :
    List.Forall₂ IsStatement gs ss ∧ ∀ g ∈ gs, Balanced Token.isSymbol '(' ')' g := by
  generalize hr : Except.ok ss = result at h
  induction h generalizing ss with
  | nil =>
    cases hr
    exact ⟨.nil, by simp⟩
  | statement hb hs _ ih =>
    cases hr
    obtain ⟨hf, hg⟩ := ih rfl
    exact ⟨.cons hs hf, by simpa [hb] using hg⟩
  | fails => cases hr
  | later => cases hr

theorem Outcome.error {gs : List (List Token)} {e : ParseError} (h : Outcome gs (.error e)) :
    ∃ before g after place quoted, gs = before ++ g :: after ∧
      (∀ b ∈ before, Balanced Token.isSymbol '(' ')' b) ∧ FailsAt g place ∧
      e = .unbalanced place quoted := by
  generalize hr : Except.error e = result at h
  induction h with
  | nil => cases hr
  | statement => cases hr
  | @fails g gs place quoted hf =>
    cases hr
    exact ⟨[], g, gs, place, quoted, rfl, by simp, hf, rfl⟩
  | @later g gs error hb _ ih =>
    obtain ⟨before, g', after, place, quoted, rfl, hbs, hf, he⟩ := ih hr
    exact ⟨g :: before, g', after, place, quoted, rfl, by simpa [hb] using hbs, hf, he⟩

theorem outcome_segment {source : Text} {tokens : List Token}
    (h : tokenize source .start = .ok tokens) :
    Outcome (statementGroups tokens) (segment source) := by
  have hs : segment source = (Segmenter.between [] false).statements tokens := by
    rw [segment, h]
    rfl
  rw [hs]
  exact outcome_statements (tokenize_eq_ok_iff.mp h).proper [] false

/--
Segmentation is the cut of the tokens at the semicolons: it succeeds exactly if the parentheses of
every group match, it gives one statement for each group, and it fails at the first place at which
parentheses fail.
-/
theorem segment_groups {source : Text} {tokens : List Token}
    (h : tokenize source .start = .ok tokens) :
    ((∃ statements, segment source = .ok statements) ↔
      ∀ g ∈ statementGroups tokens, Balanced Token.isSymbol '(' ')' g) ∧
    (∀ statements, segment source = .ok statements →
      List.Forall₂ IsStatement (statementGroups tokens) statements) ∧
    ∀ error, segment source = .error error →
      ∃ before g after place quoted, statementGroups tokens = before ++ g :: after ∧
        (∀ b ∈ before, Balanced Token.isSymbol '(' ')' b) ∧ FailsAt g place ∧
        error = .unbalanced place quoted := by
  have ho := outcome_segment h
  refine ⟨⟨?_, ?_⟩, ?_, ?_⟩
  · rintro ⟨statements, hok⟩
    rw [hok] at ho
    exact ho.ok.2
  · intro hb
    cases hr : segment source with
    | ok statements => exact ⟨statements, rfl⟩
    | error error =>
      rw [hr] at ho
      obtain ⟨before, g, after, place, quoted, hg, _, hf, _⟩ := ho.error
      exact absurd (hb g (by simp [hg])) hf.not_balanced
  · intro statements hok
    rw [hok] at ho
    exact ho.ok.1
  · intro error he
    rw [he] at ho
    exact ho.error

theorem segment_groups_of_two_groups :
    ∃ tokens, tokenize "(/**/';');;g".toList .start = .ok tokens ∧
      List.Forall₂ IsStatement (statementGroups tokens)
        [⟨"( ';')".toList, ⟨1, 1⟩, none⟩, ⟨['g'], ⟨1, 12⟩, none⟩] := by
  have ht : tokenize "(/**/';');;g".toList .start = .ok
      [⟨.symbol, ['('], 0, ⟨1, 1⟩⟩, ⟨.comment, "/**/".toList, 1, ⟨1, 2⟩⟩,
        ⟨.string, "';'".toList, 5, ⟨1, 6⟩⟩, ⟨.symbol, [')'], 8, ⟨1, 9⟩⟩,
        ⟨.symbol, [';'], 9, ⟨1, 10⟩⟩, ⟨.symbol, [';'], 10, ⟨1, 11⟩⟩,
        ⟨.word, ['g'], 11, ⟨1, 12⟩⟩] := by
    decide +kernel
  have hs : segment "(/**/';');;g".toList = .ok
      [⟨"( ';')".toList, ⟨1, 1⟩, none⟩, ⟨['g'], ⟨1, 12⟩, none⟩] := by
    decide +kernel
  exact ⟨_, ht, (segment_groups ht).2.1 _ hs⟩

end Bindery

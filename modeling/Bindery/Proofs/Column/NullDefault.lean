import Bindery.Column
import Bindery.Proofs.Statement.Joining
import Bindery.Proofs.Text.Cut

namespace Bindery

def nullLetters : List Char :=
  "NULnul".toList

theorem mem_nullLetters {c : Char} (h : c.toLower ∈ "nul".toList) : c ∈ nullLetters := by
  have hd : c.isUpper = decide (c.val ≥ 'A'.val ∧ c.val ≤ 'Z'.val) := rfl
  by_cases hu : c.isUpper = true
  · have hall : ∀ i < 26, (Char.ofNat (65 + i)).toLower ∈ "nul".toList →
        Char.ofNat (65 + i) ∈ nullLetters := by decide
    have hb : 65 ≤ c.toNat ∧ c.toNat ≤ 90 := by
      simpa [hd, UInt32.le_iff_toNat_le] using hu
    have hi := hall (c.toNat - 65) (by omega)
    rw [Nat.add_sub_cancel' hb.1, Char.ofNat_toNat] at hi
    exact hi h
  · have he : c.toLower = c := by
      rw [hd, decide_eq_true_eq] at hu
      exact dif_neg hu
    rw [he] at h
    have hs : "nul".toList ⊆ nullLetters := by decide
    exact hs h

theorem letters_of_null {word : Text} (h : word.sameIgnoringCase "NULL" = true) :
    word ≠ [] ∧ ∀ c ∈ word, c ∈ nullLetters := by
  have hl : word.map Char.toLower = ['n', 'u', 'l', 'l'] := by
    have hn : Text.asciiLower "NULL".toList = ['n', 'u', 'l', 'l'] := by decide
    rw [Text.sameIgnoringCase, hn, beq_iff_eq] at h
    exact h
  constructor
  · rintro rfl
    cases hl
  · intro c hc
    apply mem_nullLetters
    have hm : c.toLower ∈ word.map Char.toLower := List.mem_map_of_mem hc
    rw [hl] at hm
    have hs : ['n', 'u', 'l', 'l'] ⊆ "nul".toList := by decide
    exact hs hm

/--
A text that counts as `NULL`: the word with parentheses before and behind it and white space around
these, and then nothing or a rest that begins as a cast does. White space inside stands next to a
parenthesis.
-/
structure NullText where
  lead : Text
  opened : Nat
  gap : Text
  word : Text
  slack : Text
  closed : Nat
  trail : Text
  rest : Text
  lead_blank : ∀ c ∈ lead, Text.isBlank c = true
  gap_blank : ∀ c ∈ gap, Text.isBlank c = true
  slack_blank : ∀ c ∈ slack, Text.isBlank c = true
  trail_blank : ∀ c ∈ trail, Text.isBlank c = true
  gap_eq_nil : opened = 0 → gap = []
  slack_eq_nil : closed = 0 → slack = []
  spelled : word.sameIgnoringCase "NULL" = true
  ends : rest = [] ∨ "::".toList <+: rest

namespace NullText

def core (n : NullText) : Text :=
  List.replicate n.opened '(' ++ (n.gap ++ (n.word ++ n.slack) ++ List.replicate n.closed ')')

def front (n : NullText) : Text :=
  n.lead ++ (n.core ++ n.trail)

def print (n : NullText) : Text :=
  n.front ++ n.rest

theorem word_tight (n : NullText) : Text.Tight n.word := by
  obtain ⟨hn, hl⟩ := letters_of_null n.spelled
  have hall : nullLetters.all (fun c => !Text.isBlank c) = true := by decide
  have hb (c : Char) (hc : c ∈ n.word) : Text.isBlank c = false := by
    simpa using List.all_eq_true.mp hall c (hl c hc)
  obtain ⟨c, rest, hf⟩ := List.exists_cons_of_ne_nil hn
  have hlast := List.dropLast_append_getLast hn
  exact ⟨⟨c, rest, hf, hb c (by simp [hf])⟩,
    ⟨_, _, hlast.symm, hb _ (List.getLast_mem hn)⟩⟩

theorem core_tight (n : NullText) : Text.Tight n.core := by
  obtain ⟨c, rest, hf, hc⟩ := n.word_tight.first
  obtain ⟨front, d, hl, hd⟩ := n.word_tight.last
  constructor
  · rcases Nat.eq_zero_or_pos n.opened with ho | ho
    · refine ⟨c, rest ++ n.slack ++ List.replicate n.closed ')', ?_, hc⟩
      simp [core, ho, n.gap_eq_nil ho, hf]
    · obtain ⟨k, hk⟩ := Nat.exists_eq_add_one_of_ne_zero (Nat.ne_of_gt ho)
      refine ⟨'(', List.replicate k '(' ++ (n.gap ++ (n.word ++ n.slack) ++
        List.replicate n.closed ')'), ?_, by decide⟩
      rw [core, hk, List.replicate_succ, List.cons_append]
  · rcases Nat.eq_zero_or_pos n.closed with ho | ho
    · refine ⟨List.replicate n.opened '(' ++ (n.gap ++ front), d, ?_, hd⟩
      simp [core, ho, n.slack_eq_nil ho, hl]
    · obtain ⟨k, hk⟩ := Nat.exists_eq_add_one_of_ne_zero (Nat.ne_of_gt ho)
      refine ⟨List.replicate n.opened '(' ++ (n.gap ++ (n.word ++ n.slack) ++
        List.replicate k ')'), ')', ?_, by decide⟩
      rw [core, hk, List.replicate_succ']
      simp only [List.append_assoc]

theorem colon_not_mem (n : NullText) : ':' ∉ n.front := by
  have hblank {t : Text} (h : ∀ c ∈ t, Text.isBlank c = true) : ':' ∉ t := by
    intro hc
    exact absurd (h ':' hc) (by decide)
  have hword : ':' ∉ n.word := by
    intro hc
    exact absurd ((letters_of_null n.spelled).2 ':' hc) (by decide)
  simp [front, core, hblank n.lead_blank, hblank n.gap_blank, hword, hblank n.slack_blank,
    hblank n.trail_blank]

/-- Parts that count as `NULL`, wherever their white space stands. -/
theorem exists_of_parts {lead gap word slack trail rest : Text} (opened closed : Nat)
    (hl : ∀ c ∈ lead, Text.isBlank c = true) (hg : ∀ c ∈ gap, Text.isBlank c = true)
    (hs : ∀ c ∈ slack, Text.isBlank c = true) (ht : ∀ c ∈ trail, Text.isBlank c = true)
    (hw : word.sameIgnoringCase "NULL" = true) (he : rest = [] ∨ "::".toList <+: rest) :
    ∃ n : NullText, n.print = lead ++ (List.replicate opened '(' ++ (gap ++ (word ++ slack)) ++
      List.replicate closed ')' ++ trail) ++ rest := by
  have happend {a b : Text} (ha : ∀ c ∈ a, Text.isBlank c = true)
      (hb : ∀ c ∈ b, Text.isBlank c = true) : ∀ c ∈ a ++ b, Text.isBlank c = true :=
    List.forall_mem_append.mpr ⟨ha, hb⟩
  cases opened with
  | zero =>
    cases closed with
    | zero =>
      refine ⟨⟨lead ++ gap, 0, [], word, [], 0, slack ++ trail, rest, happend hl hg, nofun, nofun,
        happend hs ht, fun _ => rfl, fun _ => rfl, hw, he⟩, ?_⟩
      simp [print, front, core]
    | succ k =>
      refine ⟨⟨lead ++ gap, 0, [], word, slack, k + 1, trail, rest, happend hl hg, nofun, hs, ht,
        fun _ => rfl, nofun, hw, he⟩, ?_⟩
      simp [print, front, core]
  | succ j =>
    cases closed with
    | zero =>
      refine ⟨⟨lead, j + 1, gap, word, [], 0, slack ++ trail, rest, hl, hg, nofun,
        happend hs ht, nofun, fun _ => rfl, hw, he⟩, ?_⟩
      simp [print, front, core]
    | succ k =>
      refine ⟨⟨lead, j + 1, gap, word, slack, k + 1, trail, rest, hl, hg, hs, ht, nofun, nofun, hw,
        he⟩, ?_⟩
      simp [print, front, core]

theorem take_print (n : NullText) :
    n.print.take ((Text.find? "::" n.print).getD n.print.length) = n.front := by
  have hcolons : "::".toList = [':', ':'] := by decide
  have hc := n.colon_not_mem
  rcases n.ends with he | ⟨more, he⟩
  · have hp : n.print = n.front := by rw [print, he, List.append_nil]
    have hnone : Text.find? "::" n.front = none := by
      rw [Option.eq_none_iff_forall_ne_some]
      intro k hk
      obtain ⟨before, after, hs, -⟩ := Text.find?_sound hk
      rw [hs] at hc
      simp [hcolons] at hc
    rw [hp, hnone, Option.getD_none, List.take_length]
  · have hfirst : Text.FirstAt "::".toList n.front := by
      intro before after hs
      -- With something behind, one colon less would still be two colons, and the front has none.
      rcases List.eq_nil_or_concat after with rfl | ⟨after, last, rfl⟩
      · rfl
      · have hshort : n.front ++ [':'] = before ++ [':', ':'] ++ after := by
          rw [hcolons, List.concat_eq_append] at hs
          have hassoc : n.front ++ [':'] ++ [':'] = before ++ [':', ':'] ++ after ++ [last] := by
            simpa using hs
          exact (List.append_inj' hassoc rfl).1
        have hcount := congrArg (List.count ':') hshort
        simp [List.count_eq_zero_of_not_mem hc] at hcount
        omega
    have hsome := Text.find?_complete hfirst more
    rw [List.append_assoc, he] at hsome
    rw [print, hsome, Option.getD_some, List.take_left]

theorem isNullLiteral_print (n : NullText) : isNullLiteral n.print = true := by
  have hword := letters_of_null n.spelled
  have hstops {c : Char} (hb : Text.isBlank c = false) (hc : c ∉ nullLetters) :
      c ∉ n.gap ++ (n.word ++ n.slack) := by
    simp only [List.mem_append, not_or]
    refine ⟨fun h => ?_, fun h => hc (hword.2 c h), fun h => ?_⟩
    · rw [n.gap_blank c h] at hb
      cases hb
    · rw [n.slack_blank c h] at hb
      cases hb
  have hne : n.gap ++ (n.word ++ n.slack) ≠ [] := by simp [hword.1]
  have hopen : Text.Stops (· == '(') (n.gap ++ (n.word ++ n.slack) ++
      List.replicate n.closed ')') := by
    intro c hc
    rw [List.head?_append_of_ne_nil _ hne] at hc
    have hm := List.mem_of_head? hc
    rw [beq_eq_false_iff_ne]
    rintro rfl
    exact hstops (by decide) (by decide) hm
  have hclose : Text.Stops (· == ')') (n.gap ++ (n.word ++ n.slack)).reverse := by
    intro c hc
    have hm := List.mem_reverse.mp (List.mem_of_head? hc)
    rw [beq_eq_false_iff_ne]
    rintro rfl
    exact hstops (by decide) (by decide) hm
  unfold isNullLiteral
  dsimp only
  rw [n.take_print, front, n.core_tight.trim_between n.lead_blank n.trail_blank, core,
    Text.dropWhile_replicate_append n.opened hopen, List.reverse_append, List.reverse_replicate,
    Text.dropWhile_replicate_append n.closed hclose, List.reverse_reverse,
    n.word_tight.trim_between n.gap_blank n.slack_blank]
  exact n.spelled

end NullText

theorem isNullLiteral_iff {value : Text} :
    isNullLiteral value = true ↔ ∃ n : NullText, n.print = value := by
  constructor
  · intro h
    obtain ⟨front, rest, hv, he, ht⟩ : ∃ front rest, value = front ++ rest ∧
        (rest = [] ∨ "::".toList <+: rest) ∧
        value.take ((Text.find? "::" value).getD value.length) = front := by
      cases hf : Text.find? "::" value with
      | none => exact ⟨value, [], by simp, .inl rfl, by rw [Option.getD_none, List.take_length]⟩
      | some k =>
        obtain ⟨front, more, hs, rfl, -⟩ := Text.find?_sound hf
        rw [List.append_assoc] at hs
        exact ⟨front, _, hs, .inr (List.prefix_append _ _), by
          rw [hs, Option.getD_some, List.take_left]⟩
    unfold isNullLiteral at h
    dsimp only at h
    rw [ht] at h
    obtain ⟨lead, trail, hl, htr, hfront⟩ := Text.exists_trim front
    obtain ⟨opened, ho⟩ := Text.exists_replicate_dropWhile '(' (Text.trim front)
    generalize (Text.trim front).dropWhile (· == '(') = inner at h ho
    obtain ⟨closed, hc⟩ := Text.exists_replicate_dropWhile ')' inner.reverse
    generalize inner.reverse.dropWhile (· == ')') = reversed at h hc
    obtain ⟨gap, slack, hg, hs, hinner⟩ := Text.exists_trim reversed.reverse
    obtain ⟨n, hn⟩ := NullText.exists_of_parts opened closed hl hg hs htr h he
    refine ⟨n, ?_⟩
    have hi : inner = reversed.reverse ++ List.replicate closed ')' := by
      rw [← List.reverse_reverse inner, hc, List.reverse_append, List.reverse_replicate]
    rw [hn, hv, hfront, ho, hi]
    nth_rewrite 2 [hinner]
    simp only [List.append_assoc]
  · rintro ⟨n, rfl⟩
    exact n.isNullLiteral_print

theorem isNullLiteral_trim (value : Text) :
    isNullLiteral (Text.trim value) = isNullLiteral value := by
  rw [Bool.eq_iff_iff, isNullLiteral_iff, isNullLiteral_iff]
  constructor
  · rintro ⟨n, hn⟩
    obtain ⟨lead, trail, hl, ht, hv⟩ := Text.exists_trim value
    have hlead : ∀ c ∈ lead ++ n.lead, Text.isBlank c = true :=
      List.forall_mem_append.mpr ⟨hl, n.lead_blank⟩
    rcases n.ends with he | he
    · have htrail : ∀ c ∈ n.trail ++ trail, Text.isBlank c = true :=
        List.forall_mem_append.mpr ⟨n.trail_blank, ht⟩
      refine ⟨{ n with
        lead := lead ++ n.lead, trail := n.trail ++ trail, lead_blank := hlead,
        trail_blank := htrail }, ?_⟩
      rw [hv, ← hn]
      simp [NullText.print, NullText.front, NullText.core, he]
    · refine ⟨{ n with
        lead := lead ++ n.lead, rest := n.rest ++ trail, lead_blank := hlead,
        ends := .inr (he.trans (List.prefix_append _ _)) }, ?_⟩
      rw [hv, ← hn]
      simp [NullText.print, NullText.front, NullText.core]
  · rintro ⟨n, rfl⟩
    obtain ⟨c, more, hf, hc⟩ := n.core_tight.first
    have hstart : Text.trimStart n.print = n.core ++ n.trail ++ n.rest := by
      rw [NullText.print, NullText.front, List.append_assoc, Text.trimStart,
        List.dropWhile_append_of_pos n.lead_blank, hf, List.cons_append, List.cons_append,
        List.dropWhile_cons_of_neg (by simp [hc])]
    have hcolons : "::".toList = [':', ':'] := by decide
    have hblank : ∀ c ∈ ([] : Text), Text.isBlank c = true := List.forall_mem_nil _
    rcases n.ends with he | ⟨more, he⟩
    · refine ⟨{ n with lead := [], trail := [], lead_blank := hblank, trail_blank := hblank }, ?_⟩
      have htrim : Text.trim n.print = n.core := by
        rw [NullText.print, he, List.append_nil, NullText.front,
          n.core_tight.trim_between n.lead_blank n.trail_blank]
      rw [htrim]
      simp [NullText.print, NullText.front, NullText.core, he]
    · have hrest : n.rest = ':' :: ':' :: more := by rw [← he, hcolons]; rfl
      refine ⟨{ n with
        lead := [], rest := ':' :: ':' :: Text.trimEnd more, lead_blank := hblank,
        ends := .inr (by rw [hcolons]; exact List.prefix_append [':', ':'] _) }, ?_⟩
      have htail : Text.trimEnd (':' :: more) = ':' :: Text.trimEnd more :=
        Text.trimEnd_append_cons (by decide) [] more
      rw [Text.trim, hstart, hrest, Text.trimEnd_append_cons (by decide), htail]
      simp [NullText.print, NullText.front, NullText.core]

namespace Piece

/-- White space as at most one piece. -/
def blanks (t : Text) : List Piece :=
  if t.isEmpty then [] else [⟨.whitespace, t⟩]

theorem print_blanks (t : Text) : print (blanks t) = t := by
  cases t <;> simp [blanks]

theorem spelled_blanks {t tail : Text} (hb : ∀ c ∈ t, Text.isBlank c = true)
    (hs : Text.Stops Text.isBlank tail) : Spelled tail (blanks t) := by
  cases t with
  | nil => trivial
  | cons c t =>
    obtain ⟨hc, ht⟩ := List.forall_mem_cons.mp hb
    exact ⟨.whitespace hc ht hs, trivial⟩

theorem placeCode_blanks (offset : Nat) (position : Position) (t : Text) :
    placeCode offset position (blanks t) = [] := by
  cases t with
  | nil => rfl
  | cons c t => exact placeCode_cons_trivia rfl offset position []

theorem spelled_marks {c : Char} (hc : c ∈ markChars) (n : Nat) (tail : Text) :
    Spelled tail (List.replicate n (symbol c)) := by
  induction n with
  | zero => trivial
  | succ n ih => exact ⟨spells_mark hc _, ih⟩

theorem print_marks (c : Char) (n : Nat) :
    print (List.replicate n (symbol c)) = List.replicate n c := by
  induction n with
  | zero => rfl
  | succ n ih =>
    rw [List.replicate_succ, print_cons, ih]
    rfl

theorem length_placeCode_marks (c : Char) (n offset : Nat) (position : Position) :
    (placeCode offset position (List.replicate n (symbol c))).length = n ∧
      ∀ t ∈ placeCode offset position (List.replicate n (symbol c)), t.isSymbol c = true := by
  induction n generalizing offset position with
  | zero => exact ⟨rfl, nofun⟩
  | succ n ih =>
    obtain ⟨hl, hs⟩ := ih (offset + Text.byteSize [c]) (position.advance [c])
    rw [List.replicate_succ, placeCode_cons_code rfl]
    refine ⟨by rw [List.length_cons]; exact congrArg (· + 1) hl, ?_⟩
    rw [List.forall_mem_cons]
    exact ⟨by simp [Token.isSymbol, symbol], hs⟩

end Piece

def Run.StartsCast (tokens : List Token) : Prop :=
  tokens = [] ∨ ∃ a b rest, tokens = a :: b :: rest ∧ a.isSymbol ':' = true ∧ b.isSymbol ':' = true

theorem spells_colon (rest : Text) : Spells .symbol [':'] rest := by
  refine .symbol ⟨by decide, by decide, by decide, nofun, nofun, nofun, ?_⟩
  rintro (h | ⟨h, -⟩)
  · exact absurd h (by decide)
  · cases h

namespace NullText

open Piece

def pieces (n : NullText) : List Piece :=
  blanks n.lead ++ (List.replicate n.opened (symbol '(') ++ (blanks n.gap ++
    (⟨.word, n.word⟩ :: (blanks n.slack ++ (List.replicate n.closed (symbol ')') ++
      blanks n.trail)))))

theorem print_pieces (n : NullText) : Piece.print n.pieces = n.front := by
  simp only [pieces, print_append, print_cons, print_blanks, print_marks, front, core,
    List.append_assoc]

theorem stops_rest (n : NullText) {p : Char → Bool} (hp : p ':' = false) :
    Text.Stops p n.rest := by
  rcases n.ends with he | ⟨more, he⟩
  · rw [he]
    exact Text.stops_nil p
  · have hcolons : "::".toList = [':', ':'] := by decide
    rw [← he, hcolons]
    exact Text.stops_cons.mpr hp

theorem spells_word (n : NullText) :
    Spells .word n.word (n.slack ++ (List.replicate n.closed ')' ++ n.trail) ++ n.rest) := by
  have hblank (c : Char) : Text.isBlank c = true → Lexeme.isNameChar c = false :=
    Lexeme.isNameChar_of_blank
  have hstops : Text.Stops Lexeme.isNameChar
      (n.slack ++ (List.replicate n.closed ')' ++ n.trail) ++ n.rest) := by
    rw [List.append_assoc, List.append_assoc]
    apply Text.Stops.append_of_forall fun c hc => hblank c (n.slack_blank c hc)
    apply Text.Stops.append_of_forall fun c hc => by rw [List.eq_of_mem_replicate hc]; decide
    apply Text.Stops.append_of_forall fun c hc => hblank c (n.trail_blank c hc)
    exact n.stops_rest (by decide)
  obtain ⟨hn, hl⟩ := letters_of_null n.spelled
  obtain ⟨c, t, hw⟩ := List.exists_cons_of_ne_nil hn
  rw [hw] at hl ⊢
  obtain ⟨hc, ht⟩ := List.forall_mem_cons.mp hl
  have hstart : nullLetters.all Lexeme.isNameStart = true := by decide
  refine .word (List.all_eq_true.mp hstart c hc) ?_ hstops ?_
  · intro d hd
    exact Lexeme.isNameChar_of_start (List.all_eq_true.mp hstart d (ht d hd))
  · rintro (rfl | rfl)
    · exact absurd hc (by decide)
    · exact absurd hc (by decide)

theorem spelled_pieces (n : NullText) : Spelled n.rest n.pieces := by
  obtain ⟨c, more, hcore, hc⟩ := n.core_tight.first
  obtain ⟨d, letters, hword, hd⟩ := n.word_tight.first
  have hprint : Piece.print (List.replicate n.opened (symbol '(') ++ (blanks n.gap ++
      (⟨.word, n.word⟩ :: (blanks n.slack ++ (List.replicate n.closed (symbol ')') ++
        blanks n.trail))))) = n.core ++ n.trail := by
    simp only [print_append, print_cons, print_blanks, print_marks, core, List.append_assoc]
  rw [pieces, spelled_append, hprint]
  refine ⟨spelled_blanks n.lead_blank ?_, ?_⟩
  · rw [hcore]
    exact Text.stops_cons.mpr hc
  · rw [spelled_append, spelled_append]
    refine ⟨spelled_marks (by decide) _ _, spelled_blanks n.gap_blank ?_, ?_, ?_⟩
    · rw [print_cons, hword]
      exact Text.stops_cons.mpr hd
    · simp only [print_append, print_blanks, print_marks]
      exact n.spells_word
    · rw [spelled_append, spelled_append]
      refine ⟨?_, spelled_marks (by decide) _ _,
        spelled_blanks n.trail_blank (n.stops_rest (by decide))⟩
      rcases Nat.eq_zero_or_pos n.closed with hz | hz
      · rw [n.slack_eq_nil hz]
        trivial
      · obtain ⟨k, hk⟩ := Nat.exists_eq_add_one_of_ne_zero (Nat.ne_of_gt hz)
        apply spelled_blanks n.slack_blank
        rw [hk, print_append, print_marks, List.replicate_succ]
        exact Text.stops_cons.mpr (by decide)

theorem startsCast_rest (n : NullText) {offset : Nat} {position : Position} {tokens : List Token}
    (h : Cursor.tokens ⟨n.rest, offset, position⟩ = .ok tokens) :
    Run.StartsCast (tokens.filter (!·.isTrivia)) := by
  rcases n.ends with he | ⟨more, he⟩
  · rw [he, Cursor.tokens_finished rfl] at h
    cases h
    exact .inl rfl
  · have hcolons : "::".toList = [':', ':'] := by decide
    rw [← he, hcolons] at h
    have hx : Lexes more offset position ([':'] ++ ([':'] ++ more)) _ :=
      .token (spells_colon _) (.token (spells_colon _) .done)
    have ht := Cursor.tokens_lexes hx
    change Cursor.tokens ⟨[':', ':'] ++ more, offset, position⟩ = _ at ht
    rw [h] at ht
    generalize Cursor.tokens ⟨more, _, _⟩ = behind at ht
    cases behind with
    | error e => cases ht
    | ok behind =>
      cases ht
      exact .inr ⟨_, _, _, rfl, rfl, rfl⟩

theorem exists_placeCode (n : NullText) (offset : Nat) (position : Position) :
    ∃ opens null closes, placeCode offset position n.pieces = opens ++ null :: closes ∧
      opens.length = n.opened ∧ (∀ t ∈ opens, t.isSymbol '(' = true) ∧
      null.isKeyword "NULL" = true ∧ closes.length = n.closed ∧
      ∀ t ∈ closes, t.isSymbol ')' = true := by
  rw [pieces, placeCode_append, placeCode_blanks, List.nil_append, placeCode_append,
    placeCode_append, placeCode_blanks, List.nil_append, placeCode_cons_code rfl, placeCode_append,
    placeCode_blanks, List.nil_append, placeCode_append, placeCode_blanks, List.append_nil]
  refine ⟨_, _, _, rfl, (length_placeCode_marks ..).1, (length_placeCode_marks ..).2, ?_,
    (length_placeCode_marks ..).1, (length_placeCode_marks ..).2⟩
  rw [Token.isKeyword, n.spelled]
  rfl

/-- The tokens of a text that counts as `NULL`: parentheses, the word, parentheses, and what the
rest is read as. -/
theorem exists_tokens (n : NullText) (origin : Position) :
    ∃ opens null closes, opens.length = n.opened ∧ (∀ t ∈ opens, t.isSymbol '(' = true) ∧
      null.isKeyword "NULL" = true ∧ closes.length = n.closed ∧
      (∀ t ∈ closes, t.isSymbol ')' = true) ∧
      ∀ tokens, significantTokens n.print origin = .ok tokens →
        ∃ tail, tokens = opens ++ null :: (closes ++ tail) ∧ Run.StartsCast tail := by
  obtain ⟨opens, null, closes, hp, ho, hos, hn, hc, hcs⟩ := n.exists_placeCode 0 origin
  refine ⟨opens, null, closes, ho, hos, hn, hc, hcs, ?_⟩
  intro tokens h
  have hx := Cursor.tokens_lexes (n.spelled_pieces.lexes 0 origin)
  rw [print_pieces] at hx
  have ht : tokenize n.print origin = Cursor.tokens ⟨n.front ++ n.rest, 0, origin⟩ := rfl
  rw [significantTokens, ht, hx] at h
  generalize hr : Cursor.tokens ⟨n.rest, _, _⟩ = behind at h
  cases behind with
  | error e => cases h
  | ok behind =>
    cases h
    refine ⟨behind.filter (!·.isTrivia), ?_, n.startsCast_rest hr⟩
    rw [List.filter_append, ← placeCode, hp, List.append_assoc, List.cons_append]

end NullText

end Bindery

import Bindery.Proofs.Fragment.Printing

namespace Bindery

open Lexeme
open Text (Stops)

section Runs

variable {α : Type} {is : α → Char → Bool} {text : α → Text}

/-- The nesting behind a run that no comma cuts. -/
def Nesting.uncut? (is : α → Char → Bool) : Nesting → List α → Option Nesting
  | d, [] => some d
  | d, x :: run =>
    if is x ',' ∧ d.isTop then none
    else (d.read? is x).bind fun inner => uncut? is inner run

theorem Nesting.uncut?_append (d : Nesting) (run rest : List α) :
    d.uncut? is (run ++ rest) = (d.uncut? is run).bind fun e => e.uncut? is rest := by
  induction run generalizing d with
  | nil => rfl
  | cons x run ih =>
    rw [List.cons_append, uncut?, uncut?]
    split
    · rfl
    · rw [Option.bind_assoc]
      simp only [ih]

theorem cutRun_append {d e : Nesting} {own : List α} (h : d.uncut? is own = some e)
    (rest : List α) :
    cutRun is text d (own ++ rest) =
      (cutRun is text e rest).map (Fragment.attach (own.flatMap text)) := by
  induction own generalizing d with
  | nil =>
    cases h
    exact (map_attach_nil _ rest).symm
  | cons x own ih =>
    rw [Nesting.uncut?] at h
    split at h
    · cases h
    · rename_i hc
      obtain ⟨inner, hx, h⟩ := Option.bind_eq_some_iff.mp h
      rw [List.cons_append, cutRun, if_neg hc, hx, Option.bind_some, ih h, Option.map_map,
        List.flatMap_cons]
      simp only [Function.comp_def, attach_attach]

theorem cutRun_comma {d : Nesting} {own : List α} (h : d.uncut? is own = some {}) {x : α}
    (hx : is x ',' = true) (more : List α) :
    cutRun is text d (own ++ x :: more) =
      (cutRun is text {} more).map (own.flatMap text :: ·) := by
  rw [cutRun_append h, cutRun, if_pos ⟨hx, rfl⟩, Option.map_map]
  simp only [Function.comp_def, Fragment.attach, List.append_nil]

theorem cutRun_eq_cons {d : Nesting} {run : List α} {p : Text} {ps : List Text}
    (h : cutRun is text d run = some (p :: ps)) :
    ∃ own, d.uncut? is own = some {} ∧ p = own.flatMap text ∧
      (ps = [] ∧ run = own ∨
        ∃ x more, is x ',' = true ∧ run = own ++ x :: more ∧ cutRun is text {} more = some ps) := by
  induction run generalizing d p with
  | nil =>
    rw [cutRun] at h
    split at h
    · rename_i ht
      cases h
      exact ⟨[], congrArg some (Nesting.isTop_iff.mp ht), rfl, .inl ⟨rfl, rfl⟩⟩
    · cases h
  | cons x run ih =>
    rw [cutRun] at h
    split at h
    · rename_i hc
      obtain ⟨more, hm, he⟩ := Option.map_eq_some_iff.mp h
      cases he
      have hd := Nesting.isTop_iff.mp hc.2
      subst hd
      exact ⟨[], rfl, rfl, .inr ⟨x, run, hc.1, rfl, hm⟩⟩
    · rename_i hc
      obtain ⟨inner, hx, h⟩ := Option.bind_eq_some_iff.mp h
      obtain ⟨pieces, hp, he⟩ := Option.map_eq_some_iff.mp h
      cases pieces with
      | nil => exact absurd hp cutRun_ne_nil
      | cons q qs =>
        cases he
        obtain ⟨own, hu, rfl, hr⟩ := ih hp
        refine ⟨x :: own, ?_, List.flatMap_cons.symm, ?_⟩
        · rw [Nesting.uncut?, if_neg hc, hx]
          exact hu
        · rcases hr with ⟨rfl, rfl⟩ | ⟨y, more, hy, rfl, hm⟩
          · exact .inl ⟨rfl, rfl⟩
          · exact .inr ⟨y, more, hy, rfl, hm⟩

theorem cutRun_whole_iff {d : Nesting} {run : List α} {p : Text} :
    cutRun is text d run = some [p] ↔ d.uncut? is run = some {} ∧ p = run.flatMap text := by
  constructor
  · intro h
    obtain ⟨own, hu, hp, ⟨-, rfl⟩ | ⟨x, more, -, -, hm⟩⟩ := cutRun_eq_cons h
    · exact ⟨hu, hp⟩
    · exact absurd hm cutRun_ne_nil
  · rintro ⟨hu, rfl⟩
    have hc : cutRun is text d (run ++ []) = _ := cutRun_append hu []
    rw [List.append_nil] at hc
    rw [hc]
    simp [cutRun, Nesting.isTop, Fragment.attach]

theorem uncut?_iff_of_cutRun {β : Type} {is' : β → Char → Bool} {text' : β → Text} {d : Nesting}
    {run : List α} {run' : List β} (h : cutRun is text d run = cutRun is' text' d run') :
    d.uncut? is run = some {} ↔ d.uncut? is' run' = some {} := by
  constructor
  · intro hu
    have hc : cutRun is text d run = some [_] := cutRun_whole_iff.mpr ⟨hu, rfl⟩
    rw [h] at hc
    exact (cutRun_whole_iff.mp hc).1
  · intro hu
    have hc : cutRun is' text' d run' = some [_] := cutRun_whole_iff.mpr ⟨hu, rfl⟩
    rw [← h] at hc
    exact (cutRun_whole_iff.mp hc).1

end Runs

/-- What follows a text reaches into its last tag only if it goes on with a name. -/
theorem untagged_append_iff {x y : Text} (hy : Stops isNameChar y) :
    Untagged (x ++ y) ↔ Untagged x := by
  constructor
  · rintro h name after rfl
    exact h name (after ++ y) (by simp)
  · intro h name after he hn
    have hc : ∀ c ∈ name ++ ['$'], isNameChar c = true := by
      intro c hc
      rcases List.mem_append.mp hc with hc | hc
      · exact hn.name_chars c hc
      · rw [List.mem_singleton.mp hc]
        decide
    rw [List.append_cons] at he
    obtain ⟨more, rfl⟩ := hy.prefix_of_append hc he
    exact h name more (by simp) hn

/-- A stroke depends on what follows only in whether a dollar sign opens a string. -/
theorem Stroke.of_untagged {s x y : Text} (h : Stroke s x) (hu : Untagged x → Untagged y) :
    Stroke s y := by
  cases h with
  | quoted hq hb => exact .quoted hq hb
  | dollar hd =>
    cases hd with
    | dollarString htag hf => exact .dollar (.dollarString htag hf)
  | plain hs hq hd => exact .plain hs hq fun hc => hu (hd hc)

theorem stroke_append_iff {s x y : Text} (hy : Stops isNameChar y) :
    Stroke s (x ++ y) ↔ Stroke s x :=
  ⟨fun h => h.of_untagged (untagged_append_iff hy).mp,
    fun h => h.of_untagged (untagged_append_iff hy).mpr⟩

theorem Strokes.first {t s : Text} {strokes : List Text} (h : Strokes t (s :: strokes)) :
    Stroke s strokes.flatten ∧ Strokes strokes.flatten strokes := by
  generalize hx : s :: strokes = all at h
  cases h with
  | done => cases hx
  | stroke hs hr =>
    cases hx
    exact ⟨hr.text_eq ▸ hs, hr.text_eq ▸ hr⟩

theorem Strokes.append {x y : Text} {own more : List Text} (hx : Strokes x own)
    (hy : Strokes y more) (hs : Stops isNameChar y) : Strokes (x ++ y) (own ++ more) := by
  induction hx with
  | done => exact hy
  | stroke h _ ih =>
    rw [List.append_assoc]
    exact .stroke ((stroke_append_iff hs).mpr h) ih

theorem Strokes.split {own more : List Text} {t : Text} (h : Strokes t (own ++ more))
    (hs : Stops isNameChar more.flatten) :
    Strokes own.flatten own ∧ Strokes more.flatten more := by
  induction own generalizing t with
  | nil =>
    rw [List.nil_append] at h
    exact ⟨.done, h.text_eq ▸ h⟩
  | cons s own ih =>
    rw [List.cons_append] at h
    obtain ⟨hstroke, hr⟩ := h.first
    obtain ⟨ho, hm⟩ := ih hr
    rw [List.flatten_append, stroke_append_iff hs] at hstroke
    exact ⟨.stroke hstroke ho, hm⟩

def Cuts (list : Text) (pieces : List Text) : Prop :=
  ∃ strokes, Strokes list strokes ∧ cutRun isBare id {} strokes = some pieces

theorem cuts_iff_cut {list : Text} {pieces : List Text} (origin : Position) (quoted : Text)
    (here : Position) :
    Cuts list pieces ↔ Fragment.cut origin quoted here {} list = .ok pieces := by
  constructor
  · rintro ⟨strokes, hx, hc⟩
    exact (Fragment.cut_eq_ok_iff_cutRun hx origin quoted here {}).mpr hc
  · intro hc
    obtain ⟨strokes, hx⟩ := Fragment.exists_strokes hc
    exact ⟨strokes, hx, (Fragment.cut_eq_ok_iff_cutRun hx origin quoted here {}).mp hc⟩

def Whole (t : Text) : Prop :=
  Cuts t [t]

theorem splitTopLevel_iff_cuts {list : Text} {origin : Position} {fragments : List Fragment} :
    splitTopLevel list origin = .ok fragments ↔
      ∃ pieces, Cuts list pieces ∧ fragments = Fragment.ofPieces origin pieces := by
  rw [splitTopLevel_eq_ok_iff]
  constructor
  · rintro ⟨strokes, hx, hb, rfl⟩
    exact ⟨_, ⟨strokes, hx, cutRun_strokes_iff.mpr ⟨hb, rfl⟩⟩, rfl⟩
  · rintro ⟨pieces, ⟨strokes, hx, hc⟩, rfl⟩
    obtain ⟨hb, rfl⟩ := cutRun_strokes_iff.mp hc
    exact ⟨strokes, hx, hb, rfl⟩

theorem stops_comma (t : Text) : Stops isNameChar (',' :: t) :=
  Text.stops_cons.mpr (by decide)

/-- A text with one way to be read stroke by stroke is whole if no comma of it cuts. -/
theorem whole_iff_uncut {t : Text} {strokes : List Text} (h : Strokes t strokes) :
    Whole t ↔ ({} : Nesting).uncut? isBare strokes = some {} := by
  constructor
  · intro hw
    have hc := (cuts_iff_cut .start [] .start).mp hw
    rw [Fragment.cut_eq_ok_iff_cutRun h, cutRun_whole_iff] at hc
    exact hc.1
  · intro hu
    refine ⟨strokes, h, cutRun_whole_iff.mpr ⟨hu, ?_⟩⟩
    rw [List.flatMap_id]
    exact h.text_eq

theorem cuts_singleton_iff {t p : Text} : Cuts t [p] ↔ Whole p ∧ t = p := by
  constructor
  · rintro ⟨strokes, hx, hc⟩
    have hp := (cutRun_whole_iff.mp hc).2
    rw [List.flatMap_id, ← hx.text_eq] at hp
    subst hp
    exact ⟨⟨strokes, hx, hc⟩, rfl⟩
  · rintro ⟨hw, rfl⟩
    exact hw

/-- A longer list is a whole piece, a comma and the list of the other pieces. -/
theorem cuts_cons_iff {t p : Text} {ps : List Text} (hn : ps ≠ []) :
    Cuts t (p :: ps) ↔ ∃ rest, t = p ++ ',' :: rest ∧ Whole p ∧ Cuts rest ps := by
  constructor
  · rintro ⟨strokes, hx, hc⟩
    obtain ⟨own, hu, hp, ⟨he, -⟩ | ⟨x, more, hcomma, rfl, hm⟩⟩ := cutRun_eq_cons hc
    · exact absurd he hn
    · have hb : x = [','] := by simpa [isBare] using hcomma
      subst hb
      rw [List.flatMap_id] at hp
      obtain ⟨ho, hr⟩ := hx.split (by rw [List.flatten_cons]; exact stops_comma _)
      have ht := hx.text_eq
      rw [List.flatten_append, List.flatten_cons] at ht
      refine ⟨more.flatten, hp ▸ ht, ?_, more, hr.first.2, hm⟩
      rw [hp, whole_iff_uncut ho]
      exact hu
  · rintro ⟨rest, rfl, ⟨own, ho, hw⟩, more, hr, hm⟩
    have hu := (cutRun_whole_iff.mp hw).1
    have hcomma : Strokes (',' :: rest) ([','] :: more) :=
      .stroke (.plain (by decide) (by decide) (by simp)) hr
    refine ⟨own ++ [','] :: more, ho.append hcomma (stops_comma rest), ?_⟩
    rw [cutRun_comma hu rfl, hm, List.flatMap_id, ← ho.text_eq]
    rfl

/-- A list is cut into pieces exactly if they are whole and have the commas between them. -/
theorem cuts_iff {t : Text} {pieces : List Text} :
    Cuts t pieces ↔ pieces ≠ [] ∧ t = Text.join [','] pieces ∧ ∀ p ∈ pieces, Whole p := by
  induction pieces generalizing t with
  | nil =>
    constructor
    · rintro ⟨_, _, hc⟩
      exact absurd hc cutRun_ne_nil
    · rintro ⟨hn, -⟩
      exact absurd rfl hn
  | cons p ps ih =>
    by_cases hn : ps = []
    · subst hn
      simp [cuts_singleton_iff, Text.join, and_comm]
    · rw [cuts_cons_iff hn, Text.join, List.intercalate_cons_of_ne_nil hn]
      simp only [ih, Text.join, List.forall_mem_cons, ne_eq, hn, not_false_eq_true, true_and]
      constructor
      · rintro ⟨rest, rfl, hp, rfl, hps⟩
        exact ⟨List.cons_ne_nil p ps, by simp, hp, hps⟩
      · rintro ⟨-, rfl, hp, hps⟩
        exact ⟨_, by simp, hp, rfl, hps⟩

theorem Cuts.exchange {t p q : Text} {front back : List Text} (h : Cuts t (front ++ p :: back))
    (hq : Whole q) : Cuts (Text.join [','] (front ++ q :: back)) (front ++ q :: back) := by
  obtain ⟨-, -, hw⟩ := cuts_iff.mp h
  refine cuts_iff.mpr ⟨by simp, rfl, ?_⟩
  intro r hr
  rcases List.mem_append.mp hr with hr | hr
  · exact hw r (by simp [hr])
  · rcases List.mem_cons.mp hr with rfl | hr
    · exact hq
    · exact hw r (by simp [hr])

/-- Further brackets around a run are open behind it as before it. -/
theorem depthAfter?_add {α : Type} {is : α → Char → Bool} {opening closing : Char} {n m : Nat}
    {run : List α} (h : depthAfter? is opening closing n run = some m) (k : Nat) :
    depthAfter? is opening closing (n + k) run = some (m + k) := by
  induction run generalizing n with
  | nil =>
    cases h
    rfl
  | cons x run ih =>
    rw [depthAfter?] at h ⊢
    split at h
    · rename_i ho
      rw [if_pos ho, Nat.add_right_comm]
      exact ih h
    · rename_i ho
      rw [if_neg ho]
      split at h
      · rename_i hc
        rw [if_pos hc]
        split at h
        · cases h
        · have hk : n + k - 1 = n - 1 + k := by omega
          rw [if_neg (by omega), hk]
          exact ih h
      · rename_i hc
        rw [if_neg hc]
        exact ih h

namespace Nesting

variable {α : Type} {is : α → Char → Bool}

def within (e d : Nesting) : Nesting :=
  ⟨e.parens + d.parens, e.braces + d.braces, e.brackets + d.brackets⟩

theorem read?_within (hu : Unambiguous is) {e f : Nesting} {x : α} (h : e.read? is x = some f)
    (d : Nesting) : (e.within d).read? is x = some (f.within d) := by
  obtain ⟨hp, hb, hk⟩ := (read?_eq_some_iff hu).mp h
  apply (read?_eq_some_iff hu).mpr
  exact ⟨depthAfter?_add hp _, depthAfter?_add hb _, depthAfter?_add hk _⟩

theorem uncut?_within (hu : Unambiguous is) {d e f : Nesting} (hd : 0 < d.parens) {run : List α}
    (h : e.after? is run = some f) : (e.within d).uncut? is run = some (f.within d) := by
  have ht (e : Nesting) : (e.within d).isTop = false := by
    rw [← Bool.not_eq_true, isTop_iff]
    intro he
    have hp : e.parens + d.parens = 0 := congrArg Nesting.parens he
    omega
  induction run generalizing e with
  | nil =>
    cases h
    rfl
  | cons x run ih =>
    rw [after?_cons] at h
    obtain ⟨inner, hx, hr⟩ := Option.bind_eq_some_iff.mp h
    rw [uncut?, if_neg (by simp [ht]), read?_within hu hx]
    exact ih hr

theorem uncut?_of_bracketsMatch (hu : Unambiguous is) {d : Nesting} (hd : 0 < d.parens)
    {run : List α} (h : BracketsMatch is run) : d.uncut? is run = some d := by
  have hw : ({} : Nesting).within d = d := by simp [within]
  have hr := uncut?_within hu hd ((bracketsMatch_iff hu).mp h)
  rwa [hw] at hr

theorem uncut?_of_passive {run : List Text} (h : Passive run) (d : Nesting) :
    d.uncut? isBare run = some d := by
  induction run with
  | nil => rfl
  | cons s run ih =>
    obtain ⟨hc, hb⟩ := h s List.mem_cons_self
    rw [uncut?, if_neg (by simp [hc]), read?_of_not_bracket hb]
    exact ih fun u hu => h u (List.mem_cons_of_mem s hu)

end Nesting

namespace Piece

/-- A piece is the character `c` taken for itself. -/
def isMark (p : Piece) (c : Char) : Bool :=
  Token.isSymbol ⟨p.kind, p.text, 0, .start⟩ c

theorem isMark_unambiguous : Unambiguous isMark := by
  intro p c d hc hd
  exact Token.isSymbol_unambiguous _ c d hc hd

theorem after?_place (offset : Nat) (position : Position) (d : Nesting) (ps : List Piece) :
    d.after? Token.isSymbol (place offset position ps) = d.after? isMark ps := by
  induction ps generalizing offset position d with
  | nil => rfl
  | cons p ps ih =>
    rw [place, Nesting.after?_cons, Nesting.after?_cons]
    exact Option.bind_congr fun e _ => ih _ _ e

theorem uncut?_place (offset : Nat) (position : Position) (d : Nesting) (ps : List Piece) :
    d.uncut? Token.isSymbol (place offset position ps) = d.uncut? isMark ps := by
  induction ps generalizing offset position d with
  | nil => rfl
  | cons p ps ih =>
    rw [place, Nesting.uncut?, Nesting.uncut?]
    refine if_congr Iff.rfl rfl ?_
    exact Option.bind_congr fun e _ => ih _ _ e

end Piece

/-- A piece in which strokes and tokens agree. -/
structure Piece.Regular (p : Piece) : Prop where
  no_comment : p.kind ≠ .comment
  token : Token.Regular ⟨p.kind, p.text, 0, .start⟩

/-- Pieces without comments are regular if no word holds a dollar sign and no string escapes. -/
theorem Piece.regular_of_all {ps : List Piece} (h : ∀ p ∈ ps, p.kind ≠ .comment ∧
    (p.kind = .word → '$' ∉ p.text) ∧ (p.kind = .string → p.text.head? = some '\'')) :
    ∀ p ∈ ps, p.Regular := by
  intro p hp
  obtain ⟨hc, hw, hs⟩ := h p hp
  exact ⟨hc, Token.regular_of_kind hw hs⟩

theorem Piece.regular_of_mem_place {ps : List Piece} (h : ∀ p ∈ ps, p.Regular) (offset : Nat)
    (position : Position) : ∀ t ∈ place offset position ps, t.kind ≠ .comment ∧ t.Regular := by
  intro t ht
  obtain ⟨p, hp, hk, hx⟩ := exists_piece_of_mem_place ht
  obtain ⟨hc, hr⟩ := h p hp
  rw [hk]
  refine ⟨hc, ?_, ?_⟩
  · rw [hk, hx]
    exact hr.word
  · rw [hk, hx]
    exact hr.string

theorem strokes_of_blank {w rest : Text} {strokes : List Text} (hw : ∀ c ∈ w, Text.isBlank c = true)
    (hx : Strokes rest strokes) : ∃ own, Strokes (w ++ rest) (own ++ strokes) ∧ Passive own := by
  obtain ⟨own, hs, -, hp⟩ := strokes_of_class (by decide) hw hx
  exact ⟨own, hs, hp⟩

theorem Stroke.unique {s s' x x' : Text} (h : Stroke s x) (h' : Stroke s' x')
    (he : s ++ x = s' ++ x') : s = s' ∧ x = x' := by
  obtain ⟨c, body, rfl⟩ := h.exists_cons
  obtain ⟨c', body', rfl⟩ := h'.exists_cons
  rw [List.cons_append, List.cons_append] at he
  obtain ⟨rfl, hb⟩ := List.cons.inj he
  have hl := Fragment.quotedLength_of_stroke h
  rw [hb, Fragment.quotedLength_of_stroke h'] at hl
  obtain ⟨rfl, rfl⟩ := List.append_inj hb (Except.ok.inj hl).symm
  exact ⟨rfl, rfl⟩

theorem Stroke.front_eq_nil {front rest : Text} {c : Char} (h : Stroke (front ++ [c]) rest)
    (hc : Text.isBlank c = true) : front = [] := by
  have hne {d : Char} (hd : Text.isBlank d = false) : c ≠ d := by
    rintro rfl
    rw [hc] at hd
    cases hd
  generalize hs : front ++ [c] = s at h
  cases h with
  | @quoted quote body _ hq _ =>
    rw [← List.cons_append] at hs
    obtain ⟨-, he⟩ := List.append_inj' hs rfl
    have hb : Text.isBlank quote = false := by rcases hq with rfl | rfl <;> decide
    exact absurd (List.cons.inj he).1 (hne hb)
  | dollar hd =>
    obtain ⟨front', d, rfl, hb⟩ := hd.exists_last (by simp) (by simp)
    obtain ⟨-, he⟩ := List.append_inj' hs rfl
    exact absurd (List.cons.inj he).1 (hne hb)
  | plain =>
    have hs : front ++ [c] = [] ++ [_] := hs
    exact (List.append_inj' hs rfl).1

theorem stroke_blank {c : Char} (hc : Text.isBlank c = true) (rest : Text) : Stroke [c] rest := by
  have hne {d : Char} (hd : Text.isBlank d = false) : c ≠ d := by
    rintro rfl
    rw [hc] at hd
    cases hd
  exact .plain (hne (by decide)) (hne (by decide)) fun h => absurd h (hne (by decide))

theorem Strokes.of_blank_append {w rest : Text} {all : List Text}
    (hw : ∀ c ∈ w, Text.isBlank c = true) (h : Strokes (w ++ rest) all) :
    ∃ own, Strokes rest own := by
  induction w generalizing all with
  | nil => exact ⟨all, h⟩
  | cons c w ih =>
    generalize ht : c :: w ++ rest = text at h
    cases h with
    | done => cases ht
    | stroke hs hr =>
      obtain ⟨-, rfl⟩ := (stroke_blank (hw c List.mem_cons_self) (w ++ rest)).unique hs ht
      exact ih (fun d hd => hw d (List.mem_cons_of_mem c hd)) hr

theorem Strokes.of_append_blank {t w : Text} {all : List Text}
    (hw : ∀ c ∈ w, Text.isBlank c = true) (h : Strokes (t ++ w) all) : ∃ own, Strokes t own := by
  have hstop : Stops isNameChar w := fun c hc =>
    isNameChar_of_blank (hw c (List.mem_of_mem_head? hc))
  generalize ht : t ++ w = text at h
  induction h generalizing t with
  | done =>
    obtain ⟨rfl, -⟩ := List.append_eq_nil_iff.mp ht
    exact ⟨[], .done⟩
  | @stroke s rest strokes hs _ ih =>
    rcases List.append_eq_append_iff.mp ht with ⟨more, rfl, hm⟩ | ⟨more, rfl, hr⟩
    · rcases List.eq_nil_or_concat' more with rfl | ⟨front, c, rfl⟩
      · rw [List.append_nil] at hs
        rw [List.nil_append] at hm
        subst hm
        have hs : Stroke t [] := (stroke_append_iff hstop).mp hs
        exact ⟨[t], by simpa using Strokes.stroke hs .done⟩
      · have hc : Text.isBlank c = true := hw c (by simp [hm])
        rw [← List.append_assoc] at hs
        obtain ⟨rfl, -⟩ := List.append_eq_nil_iff.mp (hs.front_eq_nil hc)
        exact ⟨[], .done⟩
    · obtain ⟨own, ho⟩ := ih hr.symm
      rw [hr, stroke_append_iff hstop] at hs
      exact ⟨s :: own, .stroke hs ho⟩

/-- White space around a text does not change whether it is one piece. -/
theorem whole_blank_iff {lead t trail : Text} (hl : ∀ c ∈ lead, Text.isBlank c = true)
    (ht : ∀ c ∈ trail, Text.isBlank c = true) : Whole (lead ++ (t ++ trail)) ↔ Whole t := by
  have hu {own : List Text} (ho : Strokes t own) :
      Whole (lead ++ (t ++ trail)) ↔ Whole t := by
    have hstop : Stops isNameChar trail := fun c hc =>
      isNameChar_of_blank (ht c (List.mem_of_mem_head? hc))
    obtain ⟨back, hb, hpb⟩ := strokes_of_blank ht .done
    rw [List.append_nil, List.append_nil] at hb
    obtain ⟨front, hf, hpf⟩ := strokes_of_blank hl (ho.append hb hstop)
    rw [whole_iff_uncut hf, whole_iff_uncut ho, Nesting.uncut?_append,
      Nesting.uncut?_of_passive hpf, Option.bind_some, Nesting.uncut?_append]
    simp only [Nesting.uncut?_of_passive hpb]
    rw [Option.bind_fun_some]
  constructor
  · intro hw
    obtain ⟨all, hx, -⟩ := id hw
    obtain ⟨more, hm⟩ := hx.of_blank_append hl
    obtain ⟨own, ho⟩ := hm.of_append_blank ht
    exact (hu ho).mp hw
  · intro hw
    obtain ⟨own, ho, -⟩ := id hw
    exact (hu ho).mpr hw

/-- Pieces with white space around them are whole exactly if none of their commas cuts. -/
theorem whole_print_iff {ps : List Piece} (hs : Piece.Spelled [] ps) (hr : ∀ p ∈ ps, p.Regular)
    {lead trail : Text} (hl : ∀ c ∈ lead, Text.isBlank c = true)
    (ht : ∀ c ∈ trail, Text.isBlank c = true) :
    Whole (lead ++ (Piece.print ps ++ trail)) ↔
      ({} : Nesting).uncut? Piece.isMark ps = some {} := by
  have hx := hs.lexes 0 .start
  rw [List.append_nil] at hx
  have hp := Piece.regular_of_mem_place hr 0 .start
  obtain ⟨strokes, hx, hc⟩ := hx.exists_strokes (fun t ht => (hp t ht).1) fun t ht => (hp t ht).2
  rw [whole_blank_iff hl ht, whole_iff_uncut hx, ← Piece.uncut?_place 0 .start]
  exact uncut?_iff_of_cutRun (hc {})

end Bindery

import Bindery.Proofs.Fragment.Agreement
import Bindery.Proofs.Token.Printing
import Bindery.Proofs.Token.Runs

namespace Bindery

open Text (Stops)

theorem cutRun_ne_nil {α : Type} {is : α → Char → Bool} {text : α → Text} {d : Nesting}
    {run : List α} : cutRun is text d run ≠ some [] := by
  cases run with
  | nil =>
    rw [cutRun]
    split <;> simp
  | cons x run =>
    rw [cutRun]
    split
    · simp
    · intro h
      obtain ⟨inner, -, h⟩ := Option.bind_eq_some_iff.mp h
      obtain ⟨pieces, -, h⟩ := Option.map_eq_some_iff.mp h
      cases pieces <;> cases h

theorem map_attach_nil {α : Type} {is : α → Char → Bool} {text : α → Text} (d : Nesting)
    (run : List α) : (cutRun is text d run).map (Fragment.attach []) = cutRun is text d run := by
  cases hc : cutRun is text d run with
  | none => rfl
  | some pieces =>
    cases pieces with
    | nil => exact absurd hc cutRun_ne_nil
    | cons piece pieces => rfl

namespace Piece

/-- No mark and no comment, no word with a dollar sign and no string with escapes. -/
structure Plain (p : Piece) : Prop where
  no_symbol : p.kind ≠ .symbol
  no_comment : p.kind ≠ .comment
  word : p.kind = .word → '$' ∉ p.text
  string : p.kind = .string → p.text.head? = some '\''

theorem plain_space : Plain space :=
  ⟨by decide, by decide, by decide, by decide⟩

theorem plain_word {w : Text} (h : IsWord w) : Plain ⟨.word, w⟩ :=
  ⟨by simp, by simp, fun _ => h.no_dollar, by simp⟩

theorem plain_number (w : Text) : Plain ⟨.number, w⟩ :=
  ⟨by simp, by simp, by simp, by simp⟩

theorem plain_literal (t : Text) : Plain (literal t) :=
  ⟨by simp [literal], by simp [literal], by simp [literal], fun _ => rfl⟩

theorem plain_quotedName (t : Text) : Plain (quotedName t) :=
  ⟨by simp [quotedName], by simp [quotedName], by simp [quotedName], by simp [quotedName]⟩

/-- The brackets that columns may hold, each with the one that closes it. -/
def bracketPairs : List (Char × Char) :=
  [('(', ')'), ('[', ']')]

/-- Plain pieces among brackets that match; there may be commas inside of brackets, and outside of
all brackets if the pieces stand `inside` of some themselves. -/
inductive Matched : (inside : Bool) → List Piece → Prop
  | nil {inside : Bool} : Matched inside []
  | plain {inside : Bool} {p : Piece} {ps : List Piece} : p.Plain → Matched inside ps →
      Matched inside (p :: ps)
  | comma {ps : List Piece} : Matched true ps → Matched true (symbol ',' :: ps)
  | bracketed {inside : Bool} {opening closing : Char} {ps qs : List Piece} :
      (opening, closing) ∈ bracketPairs → Matched true ps → Matched inside qs →
      Matched inside (symbol opening :: (ps ++ symbol closing :: qs))

theorem Matched.append {inside : Bool} {ps qs : List Piece} (hp : Matched inside ps)
    (hq : Matched inside qs) : Matched inside (ps ++ qs) := by
  induction hp with
  | nil => exact hq
  | plain hk _ ih => exact .plain hk (ih hq)
  | comma _ ih => exact .comma (ih hq)
  | bracketed hb hi _ _ ih =>
    rw [List.cons_append, List.append_assoc, List.cons_append]
    exact .bracketed hb hi (ih hq)

theorem matched_intercalate {inside : Bool} {sep : List Piece} {items : List (List Piece)}
    (hs : Matched inside sep) (hi : ∀ x ∈ items, Matched inside x) :
    Matched inside (sep.intercalate items) := by
  induction items with
  | nil => exact .nil
  | cons x xs ih =>
    have hx := hi x (by simp)
    cases xs with
    | nil =>
      rw [List.intercalate_singleton]
      exact hx
    | cons y ys =>
      rw [List.intercalate_cons_cons]
      exact (hx.append hs).append (ih fun z hz => hi z (List.mem_cons_of_mem x hz))

theorem isSymbol_symbol (c d : Char) (offset : Nat) (position : Position) :
    Token.isSymbol ⟨.symbol, [c], offset, position⟩ d = (c == d) := by
  simp [Token.isSymbol]

theorem comma_not_bracket {c : Char} (hc : c ∈ bracketChars) : c ≠ ',' :=
  ne_of_mem_of_not_mem hc (by decide)

/-- A bracket moves the nesting as its character says, and stays with what follows it. -/
theorem cutRun_bracket {c : Char} (hc : c ∈ bracketChars) {d e : Nesting} (hn : d.next? c = some e)
    (offset : Nat) (position : Position) (run : List Token) :
    cutRun Token.isSymbol Token.text d (⟨.symbol, [c], offset, position⟩ :: run) =
      (cutRun Token.isSymbol Token.text e run).map (Fragment.attach [c]) := by
  have hi : Token.isSymbol ⟨.symbol, [c], offset, position⟩ c = true := by
    simp [isSymbol_symbol]
  have hm : Token.isSymbol ⟨.symbol, [c], offset, position⟩ ',' = false := by
    simp [isSymbol_symbol, comma_not_bracket hc]
  simp [cutRun, hm, Nesting.read?_of_bracket Token.isSymbol_unambiguous hc hi, hn]

theorem cutRun_bracketed {opening closing : Char} (ho : opening ∈ bracketChars)
    (hc : closing ∈ bracketChars) {d e : Nesting} (hin : d.next? opening = some e)
    (hout : e.next? closing = some d) {ps qs : List Piece}
    (hp : ∀ offset position rest,
      cutRun Token.isSymbol Token.text e (place offset position ps ++ rest) =
        (cutRun Token.isSymbol Token.text e rest).map (Fragment.attach (print ps)))
    (hq : ∀ offset position rest,
      cutRun Token.isSymbol Token.text d (place offset position qs ++ rest) =
        (cutRun Token.isSymbol Token.text d rest).map (Fragment.attach (print qs)))
    (offset : Nat) (position : Position) (rest : List Token) :
    cutRun Token.isSymbol Token.text d
        (place offset position (symbol opening :: (ps ++ symbol closing :: qs)) ++ rest) =
      (cutRun Token.isSymbol Token.text d rest).map
        (Fragment.attach (print (symbol opening :: (ps ++ symbol closing :: qs)))) := by
  rw [place, place_append, place, List.cons_append, List.append_assoc, List.cons_append]
  simp only [symbol]
  rw [cutRun_bracket ho hin, hp, cutRun_bracket hc hout, hq]
  simp [Option.map_map, Function.comp_def, attach_attach]

/-- Pieces whose brackets match are cut nowhere and leave the nesting as it was. -/
theorem Matched.cutRun_append {inside : Bool} {ps : List Piece} (h : Matched inside ps)
    {d : Nesting}
    (hd : inside = true → d.isTop = false) (offset : Nat) (position : Position)
    (rest : List Token) :
    cutRun Token.isSymbol Token.text d (place offset position ps ++ rest) =
      (cutRun Token.isSymbol Token.text d rest).map (Fragment.attach (print ps)) := by
  induction h generalizing d offset position rest with
  | nil => exact (map_attach_nil d rest).symm
  | @plain _ p ps hp _ ih =>
    have hb : ∀ c, Token.isSymbol ⟨p.kind, p.text, offset, position⟩ c = false := by
      intro c
      simp [Token.isSymbol, hp.no_symbol]
    rw [place, List.cons_append, cutRun_passive (fun c _ => hb c) (hb ','), ih hd, Option.map_map]
    simp only [Function.comp_def, attach_attach, print_cons]
  | @comma ps _ ih =>
    have hn : ∀ c ∈ bracketChars, Token.isSymbol ⟨.symbol, [','], offset, position⟩ c = false := by
      intro c hc
      simp [isSymbol_symbol, (comma_not_bracket hc).symm]
    rw [place, List.cons_append, symbol, cutRun, if_neg (by simp [hd rfl]),
      Nesting.read?_of_not_bracket hn, Option.bind_some, ih hd, Option.map_map]
    simp only [Function.comp_def, attach_attach]
    rfl
  | bracketed hb _ _ ihp ihq =>
    simp only [bracketPairs, List.mem_cons, List.not_mem_nil, or_false, Prod.mk.injEq] at hb
    rcases hb with ⟨rfl, rfl⟩ | ⟨rfl, rfl⟩
    · refine cutRun_bracketed (e := { d with parens := d.parens + 1 }) (by decide) (by decide) rfl
        ?_ (ihp ?_) (ihq hd) offset position rest
      · simp [Nesting.next?]
      · simp [Nesting.isTop]
    · refine cutRun_bracketed (e := { d with brackets := d.brackets + 1 }) (by decide) (by decide)
        rfl ?_ (ihp ?_) (ihq hd) offset position rest
      · simp [Nesting.next?]
      · simp [Nesting.isTop]

/-- What stands between two items of a list. -/
def separator : List Piece :=
  [symbol ',', space]

theorem spelled_separated {items : List (List Piece)} {tail : Text}
    (hi : ∀ x ∈ items, ∀ rest, Breaks rest → Spelled rest x)
    (hq : ∀ x ∈ items, ∀ rest, Stops Text.isBlank (print x ++ rest)) (ht : Breaks tail) :
    Spelled tail (separator.intercalate items) := by
  refine spelled_intercalate hi ?_ hq ?_ ht
  · intro rest hr
    exact ⟨spells_mark (by decide) _, spells_space hr, trivial⟩
  · intro rest
    exact breaks_cons (by decide) _

theorem cutRun_separator (offset : Nat) (position : Position) (ps : List Piece) :
    cutRun Token.isSymbol Token.text {} (place offset position (separator ++ ps)) =
      (cutRun Token.isSymbol Token.text {}
        (place (offset + 2) ((position.next ',').next ' ') ps)).map
          (([] :: ·) ∘ Fragment.attach [' ']) := by
  have hb : ∀ c, Token.isSymbol ⟨.whitespace, [' '], offset + 1, position.next ','⟩ c = false :=
    fun c => rfl
  change cutRun Token.isSymbol Token.text {} (⟨.symbol, [','], offset, position⟩ ::
    ⟨.whitespace, [' '], offset + 1, position.next ','⟩ :: place _ _ ps) = _
  rw [cutRun, if_pos (by simp [isSymbol_symbol, Nesting.isTop]),
    cutRun_passive (fun c _ => hb c) (hb ','), Option.map_map]
  rfl

theorem cutRun_list {x : List Piece} {xs : List (List Piece)}
    (h : ∀ y ∈ x :: xs, Matched false y) (offset : Nat) (position : Position) :
    cutRun Token.isSymbol Token.text {} (place offset position (separator.intercalate (x :: xs))) =
      some (print x :: xs.map (' ' :: print ·)) := by
  induction xs generalizing x offset position with
  | nil =>
    have hx : Matched false x := h x (by simp)
    have hc := hx.cutRun_append (d := {}) (by simp) offset position []
    rw [List.append_nil] at hc
    rw [List.intercalate_singleton, hc]
    simp [cutRun, Nesting.isTop, Fragment.attach]
  | cons y ys ih =>
    have hx : Matched false x := h x (by simp)
    have hy := ih (x := y) fun z hz => h z (List.mem_cons_of_mem x hz)
    rw [List.intercalate_cons_cons, List.append_assoc, place_append, hx.cutRun_append (by simp),
      cutRun_separator, hy]
    simp [Fragment.attach]

theorem text_ofPieces {x : List Piece} {xs : List (List Piece)}
    (h : ∀ y ∈ x :: xs, (print y).Tight) (here : Position) :
    (Fragment.ofPieces here (print x :: xs.map (' ' :: print ·))).map Fragment.text =
      (x :: xs).map print := by
  have hone {y : List Piece} (hy : (print y).Tight) (here : Position) :
      (Fragment.ofPiece? here (print y)).toList.map Fragment.text = [print y] := by
    obtain ⟨c, body, hf, hc⟩ := hy.first
    have ho := Fragment.ofPiece?_of_not_blank hc here body
    rw [← hf, hy.trim_eq] at ho
    rw [ho]
    rfl
  have hmore (here : Position) (ys : List (List Piece)) (hys : ∀ y ∈ ys, (print y).Tight) :
      (Fragment.ofPieces here (ys.map (' ' :: print ·))).map Fragment.text = ys.map print := by
    induction ys generalizing here with
    | nil => rfl
    | cons y ys ih =>
      have hw : ∀ c ∈ [' '], Text.isBlank c = true := fun c hc => List.mem_singleton.mp hc ▸ rfl
      have hb := Fragment.ofPiece?_blank_append hw here (print y)
      rw [List.map_cons, Fragment.ofPieces, List.map_append, ← List.singleton_append, hb,
        hone (hys y (by simp)), ih _ fun z hz => hys z (by simp [hz])]
      rfl
  rw [Fragment.ofPieces, List.map_append, hone (h x (by simp)),
    hmore _ xs fun y hy => h y (by simp [hy])]
  rfl

theorem symbol_regular (c : Char) (offset : Nat) (position : Position) :
    Token.kind ⟨.symbol, [c], offset, position⟩ ≠ .comment ∧
      Token.Regular ⟨.symbol, [c], offset, position⟩ :=
  ⟨by simp, Token.regular_of_kind (by simp) (by simp)⟩

/-- Strokes and tokens agree on pieces whose brackets match. -/
theorem Matched.regular {inside : Bool} {ps : List Piece} (h : Matched inside ps) (offset : Nat)
    (position : Position) :
    ∀ t ∈ place offset position ps, t.kind ≠ .comment ∧ t.Regular := by
  induction h generalizing offset position with
  | nil =>
    intro t ht
    cases ht
  | plain hp _ ih =>
    intro t ht
    rcases List.mem_cons.mp ht with rfl | ht
    · exact ⟨hp.no_comment, Token.regular_of_kind hp.word hp.string⟩
    · exact ih _ _ t ht
  | comma _ ih =>
    intro t ht
    rcases List.mem_cons.mp ht with rfl | ht
    · exact symbol_regular _ _ _
    · exact ih _ _ t ht
  | bracketed _ _ _ ihp ihq =>
    intro t ht
    rw [place, place_append, place, List.mem_cons, List.mem_append, List.mem_cons] at ht
    rcases ht with rfl | ht | rfl | ht
    · exact symbol_regular _ _ _
    · exact ihp _ _ t ht
    · exact symbol_regular _ _ _
    · exact ihq _ _ t ht

theorem Matched.mark_of_mem {inside : Bool} {ps : List Piece} (h : Matched inside ps) {p : Piece}
    (hp : p ∈ ps) (hk : p.kind = .symbol) : ∃ c ∈ ',' :: bracketChars, p.text = [c] := by
  induction h with
  | nil => cases hp
  | plain hq _ ih =>
    rcases List.mem_cons.mp hp with rfl | hp
    · exact absurd hk hq.no_symbol
    · exact ih hp
  | comma _ ih =>
    rcases List.mem_cons.mp hp with rfl | hp
    · exact ⟨',', by simp, rfl⟩
    · exact ih hp
  | @bracketed _ opening closing _ _ hb _ _ ihp ihq =>
    have hm : ∀ pair ∈ bracketPairs,
        pair.1 ∈ ',' :: bracketChars ∧ pair.2 ∈ ',' :: bracketChars := by
      decide
    rw [List.mem_cons, List.mem_append, List.mem_cons] at hp
    rcases hp with rfl | hp | rfl | hp
    · exact ⟨opening, (hm _ hb).1, rfl⟩
    · exact ihp hp
    · exact ⟨closing, (hm _ hb).2, rfl⟩
    · exact ihq hp

theorem Matched.after?_placeCode {inside : Bool} {ps : List Piece} (h : Matched inside ps)
    (offset : Nat) (position : Position) (d : Nesting) :
    d.after? Token.isSymbol (placeCode offset position ps) = some d := by
  have hs (c : Char) : (symbol c).isCode = true := rfl
  have hone {t : Token} {d e : Nesting} {rest : List Token}
      (ht : d.read? Token.isSymbol t = some e) :
      d.after? Token.isSymbol (t :: rest) = e.after? Token.isSymbol rest := by
    rw [Nesting.after?_cons, ht, Option.bind_some]
  induction h generalizing offset position d with
  | nil => rfl
  | @plain _ p ps hp _ ih =>
    cases hc : p.isCode with
    | false =>
      rw [placeCode_cons_trivia hc]
      exact ih _ _ d
    | true =>
      rw [placeCode_cons_code hc, hone (Nesting.read?_of_not_bracket ?_ d)]
      · exact ih _ _ d
      · intro c _
        simp [Token.isSymbol, hp.no_symbol]
  | comma _ ih =>
    rw [placeCode_cons_code (hs ','), hone (Nesting.read?_of_not_bracket ?_ d)]
    · exact ih _ _ d
    · intro c hc
      exact (isSymbol_symbol _ c _ _).trans (beq_false_of_ne (comma_not_bracket hc).symm)
  | @bracketed _ opening closing ps qs hb _ _ ihp ihq =>
    have hread {c : Char} (hc : c ∈ bracketChars) (offset : Nat) (position : Position)
        (d : Nesting) :
        d.read? Token.isSymbol ⟨(symbol c).kind, (symbol c).text, offset, position⟩ = d.next? c :=
      Nesting.read?_of_bracket Token.isSymbol_unambiguous hc
        ((isSymbol_symbol c c _ _).trans (beq_self_eq_true c)) d
    have hd : opening ∈ bracketChars ∧ closing ∈ bracketChars ∧
        ∃ e, d.next? opening = some e ∧ e.next? closing = some d := by
      simp only [bracketPairs, List.mem_cons, List.not_mem_nil, or_false, Prod.mk.injEq] at hb
      rcases hb with ⟨rfl, rfl⟩ | ⟨rfl, rfl⟩
      · exact ⟨by decide, by decide, _, rfl, by simp [Nesting.next?]⟩
      · exact ⟨by decide, by decide, _, rfl, by simp [Nesting.next?]⟩
    obtain ⟨ho, hc, e, hopen, hclose⟩ := hd
    rw [placeCode_cons_code (hs opening), hone ((hread ho _ _ d).trans hopen), placeCode_append,
      Nesting.after?_append, ihp, Option.bind_some, placeCode_cons_code (hs closing),
      hone ((hread hc _ _ e).trans hclose), ihq]

theorem Matched.depth_eq {inside : Bool} {ps : List Piece} (h : Matched inside ps)
    (offset : Nat) (position : Position) (d : Nat) :
    Run.depth d (placeCode offset position ps) = d := by
  obtain ⟨hp, -, hk⟩ := (Nesting.after?_eq_some_iff Token.isSymbol_unambiguous).mp
    (h.after?_placeCode offset position {})
  exact Run.depth_of_depthAfter? hp hk d

theorem Matched.balanced {inside : Bool} {ps : List Piece} (h : Matched inside ps)
    (offset : Nat) (position : Position) :
    Balanced Token.isSymbol '(' ')' (placeCode offset position ps) := by
  obtain ⟨hp, -, -⟩ := (Nesting.after?_eq_some_iff Token.isSymbol_unambiguous).mp
    (h.after?_placeCode offset position {})
  exact (balanced_iff Token.isSymbol_unambiguous (by decide)).mpr hp

end Piece

theorem splitTopLevel_of_cutRun {inside : Bool} {ps : List Piece} (hs : Piece.Spelled [] ps)
    (hm : Piece.Matched inside ps) {origin : Position} {pieces : List Text}
    (h : cutRun Token.isSymbol Token.text {} (Piece.place 0 origin ps) = some pieces) :
    splitTopLevel (Piece.print ps) origin = .ok (Fragment.ofPieces origin pieces) := by
  have hx := hs.lexes 0 origin
  rw [List.append_nil] at hx
  have hr := hm.regular 0 origin
  obtain ⟨strokes, hx, hc⟩ := hx.exists_strokes (fun t ht => (hr t ht).1) fun t ht => (hr t ht).2
  rw [← hc] at h
  have ho := (Fragment.cut_eq_ok_iff_cutRun hx origin (snippet (Piece.print ps)) origin {}).mpr h
  rw [splitTopLevel, ho]
  rfl

theorem splitTopLevel_print {items : List (List Piece)}
    (hs : Piece.Spelled [] (Piece.separator.intercalate items))
    (hm : ∀ inside, ∀ x ∈ items, Piece.Matched inside x) (ht : ∀ x ∈ items, (Piece.print x).Tight)
    (origin : Position) :
    ∃ fragments, splitTopLevel (Piece.print (Piece.separator.intercalate items)) origin =
      .ok fragments ∧ fragments.map Fragment.text = items.map Piece.print := by
  have hl : Piece.Matched true (Piece.separator.intercalate items) := by
    apply Piece.matched_intercalate _ (hm true)
    exact .comma (.plain Piece.plain_space .nil)
  cases items with
  | nil =>
    have hc : cutRun Token.isSymbol Token.text {} (Piece.place 0 origin []) = some [[]] := rfl
    exact ⟨[], splitTopLevel_of_cutRun hs hl hc, rfl⟩
  | cons x xs =>
    exact ⟨_, splitTopLevel_of_cutRun hs hl (Piece.cutRun_list (hm false) 0 origin),
      Piece.text_ofPieces ht origin⟩

end Bindery

import Bindery.Proofs.Module.Literal
import Bindery.Proofs.Name.Plain

namespace Bindery.Code

/-- A character of code, or a string literal as it is written. -/
inductive Atom where
  | char (c : Char)
  | literal (source : Text)
  deriving DecidableEq, Repr

/-- Where a splitter of code stands: between literals, or in one, of which it keeps what it read. -/
inductive Place where
  | between
  | quoted (read : Text)
  | escaped (read : Text)
  deriving DecidableEq, Repr

/-- The characters that begin a literal of either kind or a comment. -/
def marks : List Char :=
  ['\'', '"', '#']

def atomsFrom : Place → Text → Option (List Atom)
  | .between, [] => some []
  | .between, c :: rest =>
    if c = '\'' then atomsFrom (.quoted [c]) rest
    else if marks.contains c then none
    else (atomsFrom .between rest).map (.char c :: ·)
  | .quoted read, c :: rest =>
    if c = '\'' then (atomsFrom .between rest).map (.literal (read ++ [c]) :: ·)
    else if c = '\\' then atomsFrom (.escaped (read ++ [c])) rest
    else if c = '\n' then none
    else atomsFrom (.quoted (read ++ [c])) rest
  | .escaped read, c :: rest => atomsFrom (.quoted (read ++ [c])) rest
  | _, [] => none

/--
The atoms of a text. Whether a literal denotes anything is not asked here; literals in double quotes
and comments are refused.
-/
def atoms? (t : Text) : Option (List Atom) :=
  atomsFrom .between t

/-- The pairs of literals that stand behind an opening parenthesis, with a comma between them. -/
def pairs : List Atom → List (Text × Text)
  | .char '(' :: .literal first :: .char ',' :: .char ' ' :: .literal second :: rest =>
    (first, second) :: pairs rest
  | _ :: rest => pairs rest
  | [] => []

/-- The pairs in a text; one that cannot be split counts for none. -/
def paired (t : Text) : List (Text × Text) :=
  ((atoms? t).map pairs).getD []

/-- No literal and no comment begins in the text. -/
def IsBare (t : Text) : Prop :=
  ∀ c ∈ t, c ∉ marks

instance (t : Text) : Decidable (IsBare t) :=
  List.decidableBAll (fun c => c ∉ marks) t

theorem IsBare.append {a b : Text} (ha : IsBare a) (hb : IsBare b) : IsBare (a ++ b) :=
  List.forall_mem_append.mpr ⟨ha, hb⟩

theorem isBare_of_isPlain {name : Text} (h : Name.IsPlain name) : IsBare name := by
  have hm : marks.all (fun c => !Name.isIdentifierChar c) = true := by decide
  intro c hc hmark
  have hn := List.all_eq_true.mp hm c hmark
  rw [h c hc] at hn
  cases hn

theorem atoms?_char {c : Char} (h : c ∉ marks) (rest : Text) :
    atoms? (c :: rest) = (atoms? rest).map (.char c :: ·) := by
  have hq : c ≠ '\'' := fun hc => h (hc ▸ List.mem_cons_self)
  rw [atoms?, atomsFrom, if_neg hq, if_neg (mt List.contains_iff_mem.mp h), atoms?]

theorem atoms?_bare {a : Text} (h : IsBare a) (rest : Text) :
    atoms? (a ++ rest) = (atoms? rest).map (a.map .char ++ ·) := by
  induction a with
  | nil => simp
  | cons c a ih =>
    obtain ⟨hc, ha⟩ := List.forall_mem_cons.mp h
    rw [List.cons_append, atoms?_char hc, ih ha, Option.map_map]
    rfl

theorem atomsFrom_escapeChar (c : Char) (read rest : Text) :
    atomsFrom (.quoted read) (Module.escapeChar c ++ rest) =
      atomsFrom (.quoted (read ++ Module.escapeChar c)) rest := by
  rcases Module.escapeChar_cases c with ⟨e, he, -, -⟩ | ⟨he, hq, hb, hn, -⟩
  · simp [he, atomsFrom]
  · simp [he, atomsFrom, hq, hb, hn]

theorem atomsFrom_written (t read rest : Text) :
    atomsFrom (.quoted read) (t.flatMap Module.escapeChar ++ rest) =
      atomsFrom (.quoted (read ++ t.flatMap Module.escapeChar)) rest := by
  induction t generalizing read with
  | nil => simp
  | cons c t ih =>
    rw [List.flatMap_cons, List.append_assoc, atomsFrom_escapeChar, ih, List.append_assoc]

theorem atoms?_quote (t rest : Text) :
    atoms? (Module.quote t ++ rest) = (atoms? rest).map (.literal (Module.quote t) :: ·) := by
  have hq : "'".toList = ['\''] := by decide
  unfold Module.quote
  rw [hq, List.append_assoc, List.append_assoc, List.singleton_append, List.singleton_append,
    atoms?, atomsFrom, if_pos rfl, atomsFrom_written, atomsFrom, if_pos rfl, atoms?]

theorem pairs_pair (first second : Text) (y : List Atom) :
    pairs (.char '(' :: .literal first :: .char ',' :: .char ' ' :: .literal second :: y) =
      (first, second) :: pairs y := by
  rw [pairs]

theorem pairs_literal (source : Text) (y : List Atom) : pairs (.literal source :: y) = pairs y := by
  rw [pairs]
  exact fun _ _ _ h => nomatch h

theorem pairs_char {c : Char} (h : c ≠ '(') (y : List Atom) : pairs (.char c :: y) = pairs y := by
  rw [pairs]
  intro _ _ _ hc
  cases hc
  exact absurd rfl h

theorem pairs_open {c : Char} (y : List Atom) :
    pairs (.char '(' :: .char c :: y) = pairs (.char c :: y) := by
  rw [pairs]
  exact fun _ _ _ _ h => nomatch h

/-- A literal behind an opening parenthesis is in no pair if no literal follows its comma. -/
theorem pairs_argument {y : List Atom}
    (h : ∀ second rest, y ≠ .char ',' :: .char ' ' :: .literal second :: rest) (first : Text) :
    pairs (.char '(' :: .literal first :: y) = pairs y := by
  rw [pairs, pairs_literal]
  intro _ second rest _ hy
  exact h second rest (List.cons.inj hy).2

theorem pairs_chars {a : Text} (h : a.getLast? ≠ some '(') (y : List Atom) :
    pairs (a.map .char ++ y) = pairs y := by
  induction a with
  | nil => rfl
  | cons c a ih =>
    cases a with
    | nil => exact pairs_char (fun hc => h (congrArg some hc)) y
    | cons d a =>
      have hrest := ih (by rwa [List.getLast?_cons_cons] at h)
      by_cases hc : c = '('
      · rw [hc]
        exact (pairs_open _).trans hrest
      · exact (pairs_char hc _).trans hrest

/-- Whatever follows, the text can be split, and the pairs in it are the given ones. -/
def HasPairs (a : Text) (ps : List (Text × Text)) : Prop :=
  ∃ x, (∀ rest, atoms? (a ++ rest) = (atoms? rest).map (x ++ ·)) ∧
    ∀ y, pairs (x ++ y) = ps ++ pairs y

theorem hasPairs_nil : HasPairs [] [] :=
  ⟨[], fun rest => by simp, fun _ => rfl⟩

theorem HasPairs.append {a b : Text} {ps qs : List (Text × Text)} (ha : HasPairs a ps)
    (hb : HasPairs b qs) : HasPairs (a ++ b) (ps ++ qs) := by
  obtain ⟨x, hx, hp⟩ := ha
  obtain ⟨z, hz, hq⟩ := hb
  refine ⟨x ++ z, fun rest => ?_, fun y => ?_⟩
  · rw [List.append_assoc, hx, hz, Option.map_map]
    simp only [Function.comp_def, List.append_assoc]
  · rw [List.append_assoc, hp, hq, List.append_assoc]

theorem hasPairs_bare {a : Text} (h : IsBare a) (hl : a.getLast? ≠ some '(') : HasPairs a [] :=
  ⟨a.map .char, atoms?_bare h, pairs_chars hl⟩

theorem hasPairs_ending {a b : Text} (ha : IsBare a) (hb : IsBare b) (hn : b ≠ [])
    (hl : b.getLast? ≠ some '(') : HasPairs (a ++ b) [] :=
  hasPairs_bare (ha.append hb) (by rwa [List.getLast?_append_of_ne_nil _ hn])

theorem hasPairs_quote (t : Text) : HasPairs (Module.quote t) [] :=
  ⟨[.literal (Module.quote t)], atoms?_quote t, pairs_literal _⟩

theorem hasPairs_pair (first second : Text) :
    HasPairs (['('] ++ (Module.quote first ++ ([',', ' '] ++ Module.quote second)))
      [(Module.quote first, Module.quote second)] := by
  refine ⟨[.char '(', .literal (Module.quote first), .char ',', .char ' ',
    .literal (Module.quote second)], fun rest => ?_, pairs_pair _ _⟩
  have hopen : IsBare ['('] := by decide
  have hcomma : IsBare [',', ' '] := by decide
  simp only [List.append_assoc]
  rw [atoms?_bare hopen, atoms?_quote, atoms?_bare hcomma, atoms?_quote]
  simp only [Option.map_map]
  rfl

/-- The text begins with a character of code. -/
def StartsBare (t : Text) : Prop :=
  ∃ c rest, t = c :: rest ∧ c ∉ marks

theorem StartsBare.append {a : Text} (h : StartsBare a) (b : Text) : StartsBare (a ++ b) := by
  obtain ⟨c, rest, rfl, hc⟩ := h
  exact ⟨c, rest ++ b, rfl, hc⟩

theorem startsBare_of_isProper {name : Text} (h : Name.IsProper name) : StartsBare name := by
  obtain ⟨c, rest, rfl⟩ := List.exists_cons_of_ne_nil h.nonempty
  exact ⟨c, rest, rfl, isBare_of_isPlain h.plain c List.mem_cons_self⟩

section Parentheses

variable {a : Text} {ps : List (Text × Text)}

theorem HasPairs.exists_char (h : HasPairs a ps) (hs : StartsBare a) :
    ∃ c x, a.head? = some c ∧ (∀ rest, atoms? (a ++ rest) =
      (atoms? rest).map (.char c :: x ++ ·)) ∧ ∀ y, pairs (.char c :: x ++ y) = ps ++ pairs y := by
  obtain ⟨c, rest, rfl, hc⟩ := hs
  obtain ⟨x, hx, hp⟩ := h
  have hs := hx []
  rw [List.append_nil, atoms?_char hc] at hs
  obtain ⟨z, -, hz⟩ := Option.map_eq_some_iff.mp hs
  obtain rfl : .char c :: z = x := hz.trans (List.append_nil x)
  exact ⟨c, z, rfl, hx, hp⟩

theorem HasPairs.opened (h : HasPairs a ps) (hs : StartsBare a) : HasPairs (['('] ++ a) ps := by
  obtain ⟨c, x, -, hx, hp⟩ := h.exists_char hs
  refine ⟨.char '(' :: .char c :: x, fun rest => ?_, fun y => (pairs_open _).trans (hp y)⟩
  rw [List.singleton_append, List.cons_append, atoms?_char (by decide), hx, Option.map_map]
  rfl

theorem HasPairs.second (h : HasPairs a ps) (hs : StartsBare a) (t : Text) :
    HasPairs (['('] ++ (Module.quote t ++ ([',', ' '] ++ a))) ps := by
  obtain ⟨c, x, -, hx, hp⟩ := h.exists_char hs
  have hcomma : IsBare [',', ' '] := by decide
  refine ⟨.char '(' :: .literal (Module.quote t) :: .char ',' :: .char ' ' :: .char c :: x,
    fun rest => ?_, fun y => ?_⟩
  · rw [List.singleton_append, List.cons_append, atoms?_char (by decide), List.append_assoc,
      atoms?_quote, List.append_assoc, atoms?_bare hcomma, hx]
    simp only [Option.map_map]
    rfl
  · have hnot : ∀ second rest, Atom.char ',' :: .char ' ' :: .char c :: (x ++ y) ≠
        .char ',' :: .char ' ' :: .literal second :: rest := by
      intro second rest he
      cases he
    calc _ = pairs (.char ',' :: .char ' ' :: .char c :: (x ++ y)) := pairs_argument hnot _
      _ = pairs (.char c :: (x ++ y)) := by
        rw [pairs_char (by decide), pairs_char (by decide)]
      _ = ps ++ pairs y := hp y

theorem HasPairs.only (h : HasPairs a ps) (hs : StartsBare a) (hn : a.head? ≠ some ',')
    (t : Text) : HasPairs (['('] ++ (Module.quote t ++ a)) ps := by
  obtain ⟨c, x, hc, hx, hp⟩ := h.exists_char hs
  refine ⟨.char '(' :: .literal (Module.quote t) :: .char c :: x, fun rest => ?_, fun y => ?_⟩
  · rw [List.singleton_append, List.cons_append, atoms?_char (by decide), List.append_assoc,
      atoms?_quote, hx]
    simp only [Option.map_map]
    rfl
  · have hnot : ∀ second rest, Atom.char c :: (x ++ y) ≠
        .char ',' :: .char ' ' :: .literal second :: rest := by
      intro second rest he
      exact hn (hc.trans (congrArg some (Atom.char.inj (List.cons.inj he).1)))
    exact (pairs_argument hnot _).trans (hp y)

end Parentheses

theorem hasPairs_flatMap {α : Type} {xs : List α} {f : α → Text} {g : α → List (Text × Text)}
    (h : ∀ z ∈ xs, HasPairs (f z) (g z)) : HasPairs (xs.flatMap f) (xs.flatMap g) := by
  induction xs with
  | nil => exact hasPairs_nil
  | cons z zs ih =>
    obtain ⟨hz, hzs⟩ := List.forall_mem_cons.mp h
    exact hz.append (ih hzs)

theorem hasPairs_join {α : Type} {xs : List α} {f : α → Text} {g : α → List (Text × Text)}
    (h : ∀ z ∈ xs, HasPairs (f z) (g z)) :
    HasPairs (Text.join ", " (xs.map f)) (xs.flatMap g) := by
  have hcomma : HasPairs ", ".toList [] := hasPairs_bare (by decide) (by decide)
  induction xs with
  | nil => exact hasPairs_nil
  | cons z zs ih =>
    obtain ⟨hz, hzs⟩ := List.forall_mem_cons.mp h
    cases zs with
    | nil => simpa [Text.join, List.intercalate_singleton] using hz
    | cons w ws =>
      have hj : Text.join ", " ((z :: w :: ws).map f) =
          f z ++ (", ".toList ++ Text.join ", " ((w :: ws).map f)) := by
        simp [Text.join, List.intercalate_cons_cons]
      rw [hj, List.flatMap_cons]
      exact hz.append (hcomma.append (ih hzs))

theorem HasPairs.paired_eq {a : Text} {ps : List (Text × Text)} (h : HasPairs a ps) :
    (atoms? a).isSome ∧ paired a = ps := by
  obtain ⟨x, hx, hp⟩ := h
  have hs := hx []
  have hq := hp []
  rw [List.append_nil] at hs hq
  rw [paired, hs]
  simpa [atoms?, atomsFrom, pairs] using hq

end Bindery.Code

import Bindery.Proofs.Module.Literal
import Bindery.Proofs.Text.Lines

namespace Bindery.Module

/-- The characters that cannot stand for themselves, but for the newline, which can stand here. -/
def refusedInTriple : List Char :=
  refusedChars.erase '\n'

/--
Reads a literal behind its opening quotes: what it denotes, and what stands behind its closing
quotes. Of the escapes it reads those of one character.
-/
def readTriple? : Text → Option (Text × Text)
  | [] => none
  | '"' :: '"' :: '"' :: rest => some ([], rest)
  | '\\' :: c :: rest => do
    let d ← escapes.lookup c
    let (value, rest) ← readTriple? rest
    return (d :: value, rest)
  | c :: rest =>
    if c = '\\' || refusedInTriple.contains c then none
    else (readTriple? rest).map fun (value, rest) => (c :: value, rest)

def readDocstring? : Text → Option (Text × Text)
  | '"' :: '"' :: '"' :: rest => readTriple? rest
  | _ => none

/-- What stands behind the first three quotes with no backslash before one of them. -/
def behindTriple? : Text → Option Text
  | [] => none
  | '"' :: '"' :: '"' :: rest => some rest
  | '\\' :: _ :: rest => behindTriple? rest
  | _ :: rest => behindTriple? rest

def behindDocstring? : Text → Option Text
  | '"' :: '"' :: '"' :: rest => behindTriple? rest
  | _ => none

/-- Takes the margin off the lines after the first, and the last line if it is only the margin. -/
def unindent (margin value : Text) : Text :=
  match ((Text.dropBack? ('\n' :: margin) value).getD value).splitOn '\n' with
  | [] => []
  | first :: rest =>
    Text.join "\n" (first :: rest.map fun line => (Text.dropFront? margin line).getD line)

/-- The body of a docstring, written in one pass. -/
def escapeEach : Text → Text
  | '"' :: '"' :: '"' :: rest => ['\\', '"', '\\', '"', '\\', '"'] ++ escapeEach rest
  | c :: rest => (if c = '\\' then ['\\', '\\'] else [c]) ++ escapeEach rest
  | [] => []

def BeginsTriple (t : Text) : Prop :=
  ∃ rest, t = '"' :: '"' :: '"' :: rest

theorem escapeTriple_cons {c : Char} {t : Text} (h : ¬ BeginsTriple (c :: t)) :
    escapeTriple (c :: t) = c :: escapeTriple t := by
  rw [escapeTriple]
  rintro rest rfl rfl
  exact h ⟨rest, rfl⟩

theorem escapeEach_cons {c : Char} {t : Text} (h : ¬ BeginsTriple (c :: t)) :
    escapeEach (c :: t) = (if c = '\\' then ['\\', '\\'] else [c]) ++ escapeEach t := by
  rw [escapeEach]
  rintro rest rfl rfl
  exact h ⟨rest, rfl⟩

theorem readTriple?_cons {c : Char} {t : Text} (h : ¬ BeginsTriple (c :: t)) (hc : c ≠ '\\') :
    readTriple? (c :: t) =
      if c ∈ refusedInTriple then none
      else (readTriple? t).map fun (value, rest) => (c :: value, rest) := by
  rw [readTriple?]
  · simp [hc]
  · rintro rest rfl rfl
    exact h ⟨rest, rfl⟩
  · rintro _ _ rfl
    exact absurd rfl hc

theorem readTriple?_escape {e c : Char} (h : escapes.lookup e = some c) (t : Text) :
    readTriple? ('\\' :: e :: t) = (readTriple? t).map fun (value, rest) => (c :: value, rest) := by
  rw [readTriple?, h]
  cases readTriple? t <;> rfl

theorem readTriple?_quote (t : Text) :
    readTriple? ('\\' :: '"' :: t) =
      (readTriple? t).map fun (value, rest) => ('"' :: value, rest) :=
  readTriple?_escape rfl t

theorem behindTriple?_cons {c : Char} {t : Text} (h : ¬ BeginsTriple (c :: t)) (hc : c ≠ '\\') :
    behindTriple? (c :: t) = behindTriple? t := by
  rw [behindTriple?]
  · rintro rest rfl rfl
    exact h ⟨rest, rfl⟩
  · rintro _ _ rfl
    exact absurd rfl hc

/-- Induction along a text, taking three quotes at once. -/
@[elab_as_elim]
theorem tripleInduction {motive : Text → Prop} (nil : motive [])
    (triple : ∀ t, motive t → motive ('"' :: '"' :: '"' :: t))
    (cons : ∀ c t, ¬ BeginsTriple (c :: t) → motive t → motive (c :: t)) (t : Text) : motive t := by
  fun_induction escapeEach t with
  | case1 t ih => exact triple t ih
  | case2 c t hc ih =>
    apply cons c t _ ih
    rintro ⟨rest, he⟩
    cases he
    exact hc rest rfl rfl
  | case3 => exact nil

theorem eq_of_replaceChar {t more : Text}
    (h : Text.replaceChar '\\' ['\\', '\\'] t = '"' :: more) :
    ∃ t', t = '"' :: t' ∧ Text.replaceChar '\\' ['\\', '\\'] t' = more := by
  cases t with
  | nil => cases h
  | cons c t =>
    rw [Text.replaceChar, List.flatMap_cons] at h
    split at h
    · cases h
    · cases h
      exact ⟨t, rfl, rfl⟩

theorem escapeDoc_eq_escapeEach (t : Text) : escapeDoc t = escapeEach t := by
  unfold escapeDoc
  induction t using tripleInduction with
  | nil => rfl
  | triple t ih =>
    rw [escapeEach, ← ih]
    rfl
  | cons c t hc ih =>
    rw [escapeEach_cons hc, ← ih, Text.replaceChar, List.flatMap_cons, ← Text.replaceChar]
    split
    · rw [List.cons_append, List.cons_append, List.nil_append, escapeTriple_cons, escapeTriple_cons]
      · rfl
      · rintro ⟨_, ⟨⟩⟩
      · rintro ⟨_, ⟨⟩⟩
    · apply escapeTriple_cons
      rintro ⟨rest, he⟩
      obtain ⟨rfl, ht⟩ := List.cons_eq_cons.mp he
      obtain ⟨t, rfl, hs⟩ := eq_of_replaceChar ht
      obtain ⟨t, rfl, -⟩ := eq_of_replaceChar hs
      exact hc ⟨t, rfl⟩

/-- The quote that a written text begins with is the first character of the text itself. -/
theorem eq_of_escapeEach_append {t tail more : Text} (h : escapeEach t ++ tail = '"' :: more) :
    (t = [] ∧ tail = '"' :: more) ∨ ∃ t', t = '"' :: t' ∧ escapeEach t' ++ tail = more := by
  induction t using tripleInduction with
  | nil => exact .inl ⟨rfl, h⟩
  | triple t _ => cases h
  | cons c t hc _ =>
    rw [escapeEach_cons hc] at h
    split at h
    · cases h
    · cases h
      exact .inr ⟨t, rfl, rfl⟩

/-- No three quotes come together in front of what is written, if none do in the text. -/
theorem not_beginsTriple_escapeEach {c : Char} {t tail : Text} (h : ¬ BeginsTriple (c :: t))
    (hq : (c :: t).getLast? = some '"' → tail.head? ≠ some '"') :
    ¬ BeginsTriple (c :: (escapeEach t ++ tail)) := by
  rintro ⟨rest, he⟩
  obtain ⟨rfl, ht⟩ := List.cons_eq_cons.mp he
  rcases eq_of_escapeEach_append ht with ⟨rfl, rfl⟩ | ⟨t, rfl, hs⟩
  · exact hq rfl rfl
  · rcases eq_of_escapeEach_append hs with ⟨rfl, rfl⟩ | ⟨t, rfl, -⟩
    · exact hq rfl rfl
    · exact h ⟨t, rfl⟩

theorem behindTriple?_escapeEach {t tail : Text}
    (hq : t.getLast? = some '"' → tail.head? ≠ some '"') :
    behindTriple? (escapeEach t ++ tail) = behindTriple? tail := by
  induction t using tripleInduction with
  | nil => rfl
  | triple t ih =>
    rw [escapeEach, List.append_assoc]
    simp only [List.cons_append, List.nil_append, behindTriple?]
    exact ih fun h => hq (by simp only [List.getLast?_cons, h, Option.getD_some])
  | cons c t hc ih =>
    have hi := ih fun h => hq (by rw [List.getLast?_cons, h, Option.getD_some])
    rw [escapeEach_cons hc]
    split
    · rw [List.append_assoc, List.cons_append, List.cons_append, List.nil_append, behindTriple?, hi]
    · rename_i hb
      rw [List.append_assoc, List.singleton_append,
        behindTriple?_cons (not_beginsTriple_escapeEach hc hq) hb, hi]

theorem mem_refusedInTriple {c : Char} : c ∈ refusedInTriple ↔ c = '\r' ∨ c = '\x00' := by
  rw [show refusedInTriple = ['\r', '\x00'] from by decide]
  simp

/--
What is written for a text is read as this text, and the reader goes on behind it, unless the text
holds a null character.
-/
theorem readTriple?_escapeEach {t tail : Text} (hr : '\r' ∉ t)
    (hq : t.getLast? = some '"' → tail.head? ≠ some '"') :
    readTriple? (escapeEach t ++ tail) =
      if '\x00' ∈ t then none
      else (readTriple? tail).map fun (value, rest) => (t ++ value, rest) := by
  induction t using tripleInduction with
  | nil => simp [escapeEach]
  | triple t ih =>
    have hi := ih (by simp_all) fun h => hq (by
      simp only [List.getLast?_cons, h, Option.getD_some])
    rw [escapeEach, List.append_assoc]
    simp only [List.cons_append, List.nil_append, readTriple?_quote, hi]
    by_cases hz : '\x00' ∈ t <;> simp [hz, Function.comp_def]
  | cons c t hc ih =>
    obtain ⟨hcr, hr⟩ := List.ne_and_not_mem_of_not_mem_cons hr
    have hi := ih hr fun h => hq (by rw [List.getLast?_cons, h, Option.getD_some])
    rw [escapeEach_cons hc]
    split
    · rename_i hb
      subst hb
      rw [List.append_assoc, List.cons_append, List.cons_append, List.nil_append,
        readTriple?_escape rfl, hi]
      by_cases hz : '\x00' ∈ t <;> simp [hz, Function.comp_def]
    · rename_i hb
      rw [List.append_assoc, List.singleton_append,
        readTriple?_cons (not_beginsTriple_escapeEach hc hq) hb, hi]
      by_cases hcz : c = '\x00'
      · simp [hcz, mem_refusedInTriple]
      · rw [if_neg fun h => (mem_refusedInTriple.mp h).elim (hcr ∘ Eq.symm) hcz]
        by_cases hz : '\x00' ∈ t <;> simp [hz, Ne.symm hcz, Function.comp_def]

theorem escapeEach_append {s t : Text} (h : t.head? ≠ some '"') :
    escapeEach (s ++ t) = escapeEach s ++ escapeEach t := by
  induction s using tripleInduction with
  | nil => rfl
  | triple s ih =>
    simp only [List.cons_append]
    rw [escapeEach, escapeEach, ih, List.append_assoc]
  | cons c s hc ih =>
    have hst : ¬ BeginsTriple (c :: (s ++ t)) := by
      rintro ⟨rest, he⟩
      obtain ⟨rfl, ht⟩ := List.cons_eq_cons.mp he
      rcases s with _ | ⟨d, _ | ⟨e, s⟩⟩
      · exact h (congrArg List.head? ht)
      · exact h (congrArg List.head? (List.cons_eq_cons.mp ht).2)
      · cases ht
        exact hc ⟨s, rfl⟩
    rw [List.cons_append, escapeEach_cons hst, escapeEach_cons hc, ih, List.append_assoc]

theorem mem_escapeEach {c : Char} (hc : c ≠ '\\') (t : Text) : c ∈ escapeEach t ↔ c ∈ t := by
  induction t using tripleInduction with
  | nil => rfl
  | triple t ih =>
    rw [escapeEach]
    simp [ih, hc]
  | cons d t hd ih =>
    rw [escapeEach_cons hd, List.mem_append, ih, List.mem_cons]
    split
    · rename_i hb
      simp [hb, hc]
    · simp

theorem isEmpty_escapeEach (t : Text) : (escapeEach t).isEmpty = t.isEmpty := by
  induction t using tripleInduction with
  | nil => rfl
  | triple t _ => rfl
  | cons c t hc _ =>
    rw [escapeEach_cons hc]
    split <;> rfl

theorem getLast?_escapeEach {t : Text} (h : t.getLast? = some '"') :
    (escapeEach t).getLast? = some '"' := by
  induction t using tripleInduction with
  | nil => cases h
  | triple t ih =>
    rw [escapeEach, List.getLast?_append]
    cases t with
    | nil => rfl
    | cons d t =>
      rw [ih (by simpa only [List.getLast?_cons_cons] using h)]
      rfl
  | cons c t hc ih =>
    rw [escapeEach_cons hc, List.getLast?_append]
    cases t with
    | nil =>
      cases h
      rfl
    | cons d t =>
      rw [ih (by rwa [List.getLast?_cons_cons] at h)]
      rfl

theorem escapeEach_plain_append {w : Text} (h : ∀ c ∈ w, c ≠ '"' ∧ c ≠ '\\') (t : Text) :
    escapeEach (w ++ t) = w ++ escapeEach t := by
  induction w with
  | nil => rfl
  | cons c w ih =>
    obtain ⟨⟨hq, hb⟩, hw⟩ := List.forall_mem_cons.mp h
    have hc : ¬ BeginsTriple (c :: (w ++ t)) := by
      rintro ⟨rest, he⟩
      exact hq (List.cons_eq_cons.mp he).1
    rw [List.cons_append, escapeEach_cons hc, if_neg hb, ih hw]
    rfl

theorem plain_margin {margin : Text} (hm : ∀ c ∈ margin, c = ' ') :
    ∀ c ∈ '\n' :: margin, c ≠ '"' ∧ c ≠ '\\' := by
  refine List.forall_mem_cons.mpr ⟨by decide, ?_⟩
  intro c hc
  rw [hm c hc]
  decide

theorem escapeEach_join (ls : List Text) :
    escapeEach (Text.join "\n" ls) = Text.join "\n" (ls.map escapeEach) := by
  induction ls with
  | nil => rfl
  | cons first ls ih =>
    cases ls with
    | nil => simp [Text.join]
    | cons second ls =>
      have hn : ∀ c ∈ ("\n" : Text), c ≠ '"' ∧ c ≠ '\\' := plain_margin (List.forall_mem_nil _)
      rw [Text.join_cons_cons, escapeEach_append (by simp), escapeEach_plain_append hn, ih]
      rfl

theorem splitOn_escapeEach (t : Text) :
    (escapeEach t).splitOn '\n' = (t.splitOn '\n').map escapeEach := by
  have hn : ∀ l ∈ (t.splitOn '\n').map escapeEach, '\n' ∉ l := by
    intro l hl
    obtain ⟨line, hm, rfl⟩ := List.mem_map.mp hl
    rw [mem_escapeEach (by decide)]
    exact Text.newline_not_mem_of_mem_splitOn hm
  rw [← Text.splitOn_join hn (by simp), ← escapeEach_join, Text.join_splitOn]

def indentLine (margin line : Text) : Text :=
  if line.isEmpty then [] else margin ++ line

theorem indentLines_eq (margin first : Text) (ls : List Text) :
    first ++ ['\n'] ++ indentLines margin ls =
      Text.join "\n" (first :: ls.map (indentLine margin)) ++ ['\n'] := by
  induction ls generalizing first with
  | nil => simp [indentLines, Text.join]
  | cons second ls ih =>
    have hi := ih (indentLine margin second)
    have hl : indentLines margin (second :: ls) =
        indentLine margin second ++ ['\n'] ++ indentLines margin ls := by
      rw [indentLines, indentLine]
      split
      · rename_i he
        rw [List.isEmpty_iff.mp he]
        rfl
      · rfl
    rw [hl, hi, List.map_cons, Text.join_cons_cons]
    simp

theorem escapeEach_indentLine {margin : Text} (hm : ∀ c ∈ margin, c = ' ') (line : Text) :
    escapeEach (indentLine margin line) = indentLine margin (escapeEach line) := by
  unfold indentLine
  rw [isEmpty_escapeEach]
  split
  · rfl
  · exact escapeEach_plain_append (fun c hc => plain_margin hm c (List.mem_cons_of_mem _ hc)) line

theorem unindent_of_oneLine {value : Text} (h : '\n' ∉ value) (margin : Text) :
    unindent margin value = value := by
  have hd : Text.dropBack? ('\n' :: margin) value = none := by
    rw [Text.dropBack?, if_neg]
    intro hs
    exact h ((List.isSuffixOf_iff_suffix.mp hs).subset List.mem_cons_self)
  have hs : value.splitOn '\n' = [value] := by
    simpa [Text.join] using @Text.splitOn_join [value] (by simpa using h) (by simp)
  rw [unindent, hd, Option.getD_none, hs]
  simp [Text.join]

theorem unindentLine_indentLine (margin line : Text) :
    (Text.dropFront? margin (indentLine margin line)).getD (indentLine margin line) = line := by
  unfold indentLine
  split
  · rename_i he
    rw [List.isEmpty_iff.mp he]
    exact List.sublist_nil.mp (Text.dropFront?_sublist margin [])
  · rw [Text.dropFront?_append, Option.getD_some]

theorem unindent_of_lines {margin first : Text} {ls : List Text} (hm : '\n' ∉ margin)
    (hn : ∀ l ∈ first :: ls, '\n' ∉ l) :
    unindent margin (Text.join "\n" (first :: ls.map (indentLine margin)) ++ '\n' :: margin) =
      Text.join "\n" (first :: ls) := by
  obtain ⟨hf, hls⟩ := List.forall_mem_cons.mp hn
  have hi : ∀ l ∈ first :: ls.map (indentLine margin), '\n' ∉ l := by
    refine List.forall_mem_cons.mpr ⟨hf, ?_⟩
    intro l hl
    obtain ⟨line, hm', rfl⟩ := List.mem_map.mp hl
    unfold indentLine
    split
    · exact List.not_mem_nil
    · rw [List.mem_append, not_or]
      exact ⟨hm, hls line hm'⟩
  rw [unindent, Text.dropBack?_append, Option.getD_some, Text.splitOn_join hi (by simp)]
  simp only [List.map_map, Function.comp_def, unindentLine_indentLine, List.map_id']

def tripleQuote (value : Text) : Text :=
  "\"\"\"" ++ escapeEach value ++ "\"\"\""

theorem behindDocstring?_tripleQuote {value : Text} (h : value.getLast? ≠ some '"') (rest : Text) :
    behindDocstring? (tripleQuote value ++ rest) = some rest := by
  calc behindDocstring? (tripleQuote value ++ rest)
      = behindTriple? (escapeEach value ++ (("\"\"\"" : Text) ++ rest)) := by
        rw [tripleQuote, List.append_assoc]
        rfl
    _ = some rest := by
        rw [behindTriple?_escapeEach fun he => absurd he h, behindTriple?.eq_def]
        rfl

theorem readDocstring?_tripleQuote {value : Text} (hr : '\r' ∉ value)
    (h : value.getLast? ≠ some '"') (rest : Text) :
    readDocstring? (tripleQuote value ++ rest) =
      if '\x00' ∈ value then none else some (value, rest) := by
  have hend : readTriple? (("\"\"\"" : Text) ++ rest) = some ([], rest) := by
    rw [readTriple?.eq_def]
    rfl
  calc readDocstring? (tripleQuote value ++ rest)
      = readTriple? (escapeEach value ++ (("\"\"\"" : Text) ++ rest)) := by
        rw [tripleQuote, List.append_assoc]
        rfl
    _ = _ := by
        rw [readTriple?_escapeEach hr fun he => absurd he h, hend]
        simp

theorem docstring_of_oneLine {text : Text} (hn : '\n' ∉ text)
    (hq : (escapeEach text).getLast? ≠ some '"') (margin : Text) :
    docstring text margin = margin ++ tripleQuote text ++ ['\n'] := by
  have hb : '\n' ∉ escapeEach text := by rwa [mem_escapeEach (by decide)]
  unfold docstring
  simp only [escapeDoc_eq_escapeEach]
  rw [if_pos (by simp [hb, hq])]
  simp [tripleQuote]

theorem docstring_of_lines {text margin first : Text} {ls : List Text} (hr : '\r' ∉ text)
    (hl : (text.splitOn '\n').getLast? ≠ some []) (hm : ∀ c ∈ margin, c = ' ')
    (hs : text.splitOn '\n' = first :: ls)
    (h : '\n' ∈ text ∨ (escapeEach text).getLast? = some '"') :
    docstring text margin = margin ++
      tripleQuote (Text.join "\n" (first :: ls.map (indentLine margin)) ++ '\n' :: margin) ++
        ['\n'] := by
  have hlines : Text.lines (escapeEach text) = escapeEach first :: ls.map escapeEach := by
    rw [Text.lines_eq_splitOn, splitOn_escapeEach, hs, List.map_cons]
    · rwa [mem_escapeEach (by decide)]
    · rw [splitOn_escapeEach, List.getLast?_map]
      intro he
      obtain ⟨last, hlast, he⟩ := Option.map_eq_some_iff.mp he
      rw [← List.isEmpty_iff, isEmpty_escapeEach, List.isEmpty_iff] at he
      exact hl (he ▸ hlast)
  have hbody : escapeEach (Text.join "\n" (first :: ls.map (indentLine margin)) ++ '\n' :: margin) =
      Text.join "\n" (escapeEach first :: (ls.map escapeEach).map (indentLine margin)) ++
        '\n' :: margin := by
    have hp := escapeEach_plain_append (plain_margin hm) []
    rw [List.append_nil] at hp
    rw [escapeEach_append (by simp), escapeEach_join, hp, List.map_cons, List.map_map, List.map_map]
    simp only [Function.comp_def, escapeEach_indentLine hm]
    simp [escapeEach]
  have hform : ¬ (!(escapeEach text).contains '\n' &&
      (escapeEach text).getLast? != some '"') = true := by
    have hb := mem_escapeEach (c := '\n') (by decide) text
    rcases h with h | h
    · simp [hb.mpr h]
    · simp [h]
  unfold docstring
  simp only [escapeDoc_eq_escapeEach, hlines]
  rw [if_neg hform, indentLines_eq, tripleQuote, hbody]
  simp

theorem mem_indentLine {c : Char} {margin : Text} (hm : c ∉ margin) (line : Text) :
    c ∈ indentLine margin line ↔ c ∈ line := by
  unfold indentLine
  split
  · rename_i he
    rw [List.isEmpty_iff.mp he]
  · simp [hm]

/-- The lines of a text are its characters, whatever the margin before them. -/
theorem mem_indented {c : Char} {text margin first : Text} {ls : List Text} (hc : c ≠ '\n')
    (hm : c ∉ margin) (hs : text.splitOn '\n' = first :: ls) :
    c ∈ Text.join "\n" (first :: ls.map (indentLine margin)) ++ '\n' :: margin ↔ c ∈ text := by
  have hjoin (ls : List Text) : c ∈ Text.join "\n" ls ↔ ∃ l ∈ ls, c ∈ l :=
    ⟨fun h => (Text.mem_join h).resolve_left fun h => hc (List.mem_singleton.mp h),
      fun ⟨_, hl, h⟩ => Text.subset_join "\n" hl h⟩
  rw [← Text.join_splitOn text, hs, List.mem_append, hjoin, hjoin]
  simp [hc, hm, mem_indentLine hm]

theorem exists_docstring_eq {text margin : Text} (hr : '\r' ∉ text)
    (hn : text.getLast? ≠ some '\n') (hm : ∀ c ∈ margin, c = ' ') :
    ∃ value, docstring text margin = margin ++ tripleQuote value ++ ['\n'] ∧
      value.getLast? ≠ some '"' ∧ unindent margin value = text ∧
      ∀ c, c ≠ '\n' → c ≠ ' ' → (c ∈ value ↔ c ∈ text) := by
  by_cases h : '\n' ∈ text ∨ (escapeEach text).getLast? = some '"'
  · obtain ⟨first, ls, hs⟩ := List.exists_cons_of_ne_nil (List.splitOn_ne_nil '\n' text)
    have hempty : text ≠ [] := by
      rintro rfl
      rcases h with h | h <;> cases h
    have hnm : '\n' ∉ margin := fun hc => absurd (hm _ hc) (by decide)
    have hlines : ∀ l ∈ first :: ls, '\n' ∉ l := by
      rw [← hs]
      exact fun l hl => Text.newline_not_mem_of_mem_splitOn hl
    refine ⟨_, docstring_of_lines hr (Text.getLast?_splitOn hempty hn) hm hs h, ?_, ?_, ?_⟩
    · rw [List.getLast?_append_of_ne_nil _ (List.cons_ne_nil _ _)]
      exact fun he => (plain_margin hm '"' (List.mem_of_getLast? he)).1 rfl
    · rw [unindent_of_lines hnm hlines, ← hs, Text.join_splitOn]
    · exact fun c hc hb => mem_indented hc (fun h => hb (hm c h)) hs
  · obtain ⟨hnl, hq⟩ := not_or.mp h
    exact ⟨text, docstring_of_oneLine hnl hq margin, fun he => hq (getLast?_escapeEach he),
      unindent_of_oneLine hnl margin, fun _ _ _ => Iff.rfl⟩

/--
A docstring cannot be broken out of. It is its margin, one literal that ends where its closing
quotes stand, and a newline; the literal denotes the text, with the margin before its lines, exactly
if the text holds no null character, which is written as it is.
-/
theorem docstring_reads_iff {text margin : Text} (hr : '\r' ∉ text)
    (hn : text.getLast? ≠ some '\n') (hm : ∀ c ∈ margin, c = ' ') :
    ∃ literal, docstring text margin = margin ++ literal ++ ['\n'] ∧
      (∀ rest, behindDocstring? (literal ++ rest) = some rest) ∧
      ((∃ value, (∀ rest, readDocstring? (literal ++ rest) = some (value, rest)) ∧
        unindent margin value = text) ↔ '\x00' ∉ text) := by
  obtain ⟨value, hdoc, hlast, hvalue, hmem⟩ := exists_docstring_eq hr hn hm
  have hz := hmem '\x00' (by decide) (by decide)
  have hread := readDocstring?_tripleQuote ((hmem '\r' (by decide) (by decide)).not.mpr hr) hlast
  refine ⟨_, hdoc, behindDocstring?_tripleQuote hlast, ?_, ?_⟩
  · rintro ⟨_, h, -⟩ ht
    have h := h []
    rw [hread, if_pos (hz.mpr ht)] at h
    cases h
  · intro ht
    exact ⟨value, fun rest => (hread rest).trans (if_neg (hz.not.mpr ht)), hvalue⟩

/-- Four quotes, a backslash before three, an empty line, and a quote at the end. -/
def quotesText : Text :=
  "\"\"\"\"\\\"\"\"\n\n a\""

theorem docstring_reads_iff_of_quotes :
    '\r' ∉ quotesText ∧ quotesText.getLast? ≠ some '\n' ∧
    ∃ literal value, docstring quotesText indent = indent ++ literal ++ ['\n'] ∧
      (∀ rest, behindDocstring? (literal ++ rest) = some rest) ∧
      (∀ rest, readDocstring? (literal ++ rest) = some (value, rest)) ∧
      unindent indent value = quotesText := by
  have hr : '\r' ∉ quotesText := by decide
  have hn : quotesText.getLast? ≠ some '\n' := by decide
  have hm : ∀ c ∈ indent, c = ' ' := by
    intro c hc
    simpa [indent] using hc
  obtain ⟨literal, hdoc, hbehind, hread⟩ := docstring_reads_iff hr hn hm
  obtain ⟨value, hread, hvalue⟩ := hread.mpr (by decide)
  exact ⟨hr, hn, literal, value, hdoc, hbehind, hread, hvalue⟩

/-- The docstring for the null character ends where it should and denotes nothing. -/
theorem null_docstring_unreadable :
    docstring ['\x00'] indent = indent ++ "\"\"\"\x00\"\"\"".toList ++ ['\n'] ∧
      behindDocstring? "\"\"\"\x00\"\"\"".toList = some [] ∧
      readDocstring? "\"\"\"\x00\"\"\"".toList = none := by
  decide

end Bindery.Module

import Bindery.Proofs.Module.Literal
import Bindery.Proofs.Name.Plain

namespace Bindery.Code

/-- A name in code, and whether it is called: an opening parenthesis follows it. -/
structure Mention where
  name : Text
  called : Bool
  deriving DecidableEq, Repr

/-- What a word mentions; one that begins with a digit is a number. -/
def mention (word : Text) (called : Bool) : List Mention :=
  if Name.startsWithDigit word then [] else [⟨word, called⟩]

/-- Where a reader of code stands. -/
inductive State where
  | between
  | word (read : Text)
  | point
  | attribute
  /-- Right behind a literal. -/
  | closed
  | quoted
  | quotedEscape
  /-- In a literal whose fields in braces are code. -/
  | formatted
  | field (read : Text)
  | fieldAttribute
  | conversion
  /-- Behind double quotes, of which three open a long literal. -/
  | opening (quotes : Nat)
  /-- In a long literal, behind double quotes, of which three close it. -/
  | long (quotes : Nat)
  | longEscape
  deriving DecidableEq, Repr

/-- The characters that stand between words and literals. -/
def separators : List Char :=
  " \n()[]\x7b\x7d,:.=+-*/%<>!@".toList

def isSeparator (c : Char) : Bool :=
  separators.contains c

def behind (c : Char) : State :=
  if c = '.' then .point else .between

/-- Reads one character and gives the mention that ends with it. -/
def step : State → Char → Option (State × List Mention)
  | .between, c =>
    if Name.isIdentifierChar c then some (.word [c], [])
    else if isSeparator c then some (behind c, [])
    else if c = '\'' then some (.quoted, [])
    else if c = '"' then some (.opening 1, [])
    else none
  | .word read, c =>
    if Name.isIdentifierChar c then some (.word (read ++ [c]), [])
    else if isSeparator c then some (behind c, mention read (c == '('))
    else if c = '\'' ∧ read = ['f'] then some (.formatted, [])
    else none
  | .point, c | .attribute, c =>
    if Name.isIdentifierChar c then some (.attribute, [])
    else if isSeparator c then some (behind c, [])
    else none
  | .closed, c => if isSeparator c then some (behind c, []) else none
  | .quoted, c =>
    if c = '\\' then some (.quotedEscape, [])
    else if c = '\'' then some (.closed, [])
    else if c = '\n' then none
    else some (.quoted, [])
  | .quotedEscape, c => if c = '\n' then none else some (.quoted, [])
  | .formatted, c =>
    if c = '\x7b' then some (.field [], [])
    else if c = '\'' then some (.closed, [])
    else if c = '\x7d' ∨ c = '\\' ∨ c = '\n' then none
    else some (.formatted, [])
  | .field read, c =>
    if Name.isIdentifierChar c then some (.field (read ++ [c]), [])
    else if c = '.' then some (.fieldAttribute, mention read false)
    else if c = '!' then some (.conversion, mention read false)
    else if c = '\x7d' then some (.formatted, mention read false)
    else none
  | .fieldAttribute, c =>
    if Name.isIdentifierChar c then some (.fieldAttribute, [])
    else if c = '\x7d' then some (.formatted, [])
    else none
  | .conversion, c =>
    if c = 'r' then some (.conversion, [])
    else if c = '\x7d' then some (.formatted, [])
    else none
  | .opening quotes, c =>
    if c = '"' then some (if quotes = 2 then .long 0 else .opening (quotes + 1), []) else none
  | .long quotes, c =>
    if c = '\\' then some (.longEscape, [])
    else if c = '"' then some (if quotes = 2 then .closed else .long (quotes + 1), [])
    else some (.long 0, [])
  | .longEscape, _ => some (.long 0, [])

def scan (s : State) : Text → Option (State × List Mention)
  | [] => some (s, [])
  | c :: rest => do
    let (next, mentions) ← step s c
    let (last, more) ← scan next rest
    return (last, mentions ++ more)

/-- What is left at the end of a text; a literal must have been closed. -/
def finish : State → Option (List Mention)
  | .between | .point | .attribute | .closed => some []
  | .word read => some (mention read false)
  | _ => none

def readFrom (s : State) (t : Text) : Option (List Mention) :=
  (scan s t).bind fun p => (finish p.1).map (p.2 ++ ·)

def read? (t : Text) : Option (List Mention) :=
  readFrom .between t

def calls (mentions : List Mention) : List Text :=
  (mentions.filter Mention.called).map Mention.name

def words (texts : List String) : List Mention :=
  texts.map fun text => ⟨text.toList, false⟩

def call (name : String) : Mention :=
  ⟨name.toList, true⟩

def loopNames : List Mention → List Text
  | key :: bound :: rest =>
    if key.name = ("for" : Text) then bound.name :: loopNames (bound :: rest)
    else loopNames (bound :: rest)
  | _ => []

theorem scan_cons (s : State) (c : Char) (t : Text) :
    scan s (c :: t) = (step s c).bind fun p => (scan p.1 t).map fun q => (q.1, p.2 ++ q.2) := by
  simp only [scan]
  cases step s c with
  | none => rfl
  | some p =>
    simp only [Option.bind_eq_bind, Option.bind_some, Option.pure_def]
    cases scan p.1 t <;> rfl

theorem scan_append {s s' : State} {a : Text} {x : List Mention} (h : scan s a = some (s', x))
    (b : Text) : scan s (a ++ b) = (scan s' b).map fun q => (q.1, x ++ q.2) := by
  induction a generalizing s x with
  | nil =>
    cases h
    rw [List.nil_append]
    cases scan s' b <;> rfl
  | cons c a ih =>
    rw [scan_cons] at h
    obtain ⟨p, hp, h⟩ := Option.bind_eq_some_iff.mp h
    obtain ⟨q, hq, h⟩ := Option.map_eq_some_iff.mp h
    cases h
    rw [List.cons_append, scan_cons, hp, Option.bind_some, ih hq]
    cases scan q.1 b <;> simp

theorem readFrom_append {s s' : State} {a : Text} {x : List Mention}
    (h : scan s a = some (s', x)) (b : Text) :
    readFrom s (a ++ b) = (readFrom s' b).map (x ++ ·) := by
  rw [readFrom, scan_append h, readFrom]
  cases scan s' b with
  | none => rfl
  | some p =>
    simp only [Option.map_some, Option.bind_some, Option.map_map]
    cases finish p.1 <;> simp

/-- The text begins with a character that ends a word and does not call it. -/
def startsApart : Text → Bool
  | [] => false
  | c :: _ => isSeparator c && c != '('

theorem isIdentifierChar_of_isSeparator {c : Char} (h : isSeparator c = true) :
    Name.isIdentifierChar c = false := by
  have hall : separators.all (fun c => !Name.isIdentifierChar c) = true := by decide
  simpa using List.all_eq_true.mp hall c (List.contains_iff_mem.mp h)

/-- Where a text may end, a separator leads to the same state as from between words. -/
theorem step_separator {s : State} {rest : List Mention} (h : finish s = some rest) {c : Char}
    (hs : isSeparator c = true) (hc : (c == '(') = false) : step s c = some (behind c, rest) := by
  have hi := isIdentifierChar_of_isSeparator hs
  cases s <;> simp only [finish, Option.some.injEq, reduceCtorEq] at h <;> subst h <;>
    simp [step, hi, hs, hc]

theorem scan_of_finish {s : State} {rest : List Mention} (h : finish s = some rest) {t : Text}
    (ht : startsApart t = true) :
    scan s t = (scan .between t).map fun p => (p.1, rest ++ p.2) := by
  cases t with
  | nil => cases ht
  | cons c t =>
    obtain ⟨hs, hc⟩ : isSeparator c = true ∧ (c == '(') = false := by
      simpa [startsApart] using ht
    have hb : finish .between = some [] := rfl
    rw [scan_cons, scan_cons, step_separator h hs hc, step_separator hb hs hc, Option.bind_some,
      Option.bind_some]
    cases scan (behind c) t <;> rfl

def Reads (t : Text) (mentions : List Mention) : Prop :=
  read? t = some mentions

/-- The text is read as the given mentions and ends between words, so that any text may follow. -/
def Ends (t : Text) (mentions : List Mention) : Prop :=
  scan .between t = some (.between, mentions)

/-- The text can follow any word or literal and ends between words. -/
def Joins (t : Text) (mentions : List Mention) : Prop :=
  startsApart t = true ∧ Ends t mentions

/-- The text can follow any word or literal. -/
def Closes (t : Text) (mentions : List Mention) : Prop :=
  startsApart t = true ∧ Reads t mentions

instance (t : Text) (mentions : List Mention) : Decidable (Reads t mentions) :=
  inferInstanceAs (Decidable (read? t = some mentions))

instance (t : Text) (mentions : List Mention) : Decidable (Ends t mentions) :=
  inferInstanceAs (Decidable (scan .between t = some (.between, mentions)))

instance (t : Text) (mentions : List Mention) : Decidable (Joins t mentions) :=
  inferInstanceAs (Decidable (startsApart t = true ∧ Ends t mentions))

instance (t : Text) (mentions : List Mention) : Decidable (Closes t mentions) :=
  inferInstanceAs (Decidable (startsApart t = true ∧ Reads t mentions))

section Concatenation

variable {a b c : Text} {x y z : List Mention}

theorem Ends.reads (h : Ends a x) : Reads a x := by
  rw [Reads, read?, readFrom, h]
  simp [finish]

theorem Ends.append (ha : Ends a x) (hb : Ends b y) : Ends (a ++ b) (x ++ y) := by
  rw [Ends, scan_append ha, hb]
  rfl

theorem Ends.then (ha : Ends a x) (hb : Reads b y) : Reads (a ++ b) (x ++ y) := by
  rw [Reads, read?, readFrom_append ha]
  exact congrArg (Option.map (x ++ ·)) hb

theorem Reads.closed (ha : Reads a x) (hb : Closes b y) : Reads (a ++ b) (x ++ y) := by
  obtain ⟨⟨last, mentions⟩, hl, h⟩ := Option.bind_eq_some_iff.mp ha
  obtain ⟨rest, hr, rfl⟩ := Option.map_eq_some_iff.mp h
  obtain ⟨⟨last', more⟩, hl', h'⟩ := Option.bind_eq_some_iff.mp hb.2
  obtain ⟨rest', hr', rfl⟩ := Option.map_eq_some_iff.mp h'
  rw [Reads, read?, readFrom_append hl, readFrom, scan_of_finish hr hb.1, hl']
  simp [hr']

theorem Reads.enclosed (ha : Reads a x) (hb : Closes b []) : Reads (a ++ b) x := by
  simpa using ha.closed hb

theorem Joins.then (ha : Joins a x) (hb : Reads b y) : Closes (a ++ b) (x ++ y) := by
  refine ⟨?_, ha.2.then hb⟩
  cases a with
  | nil => cases ha.1
  | cons c a => exact ha.1

theorem Joins.stop (ha : Joins a x) (hb : Ends b y) : Joins (a ++ b) (x ++ y) := by
  refine ⟨?_, ha.2.append hb⟩
  cases a with
  | nil => cases ha.1
  | cons c a => exact ha.1

theorem Reads.joined (ha : Reads a x) (hb : Joins b y) (hc : Reads c z) :
    Reads (a ++ (b ++ c)) (x ++ (y ++ z)) :=
  ha.closed (hb.then hc)

theorem Reads.stopped (ha : Reads a x) (hb : Joins b y) : Ends (a ++ b) (x ++ y) := by
  obtain ⟨⟨last, mentions⟩, hl, h⟩ := Option.bind_eq_some_iff.mp ha
  obtain ⟨rest, hr, rfl⟩ := Option.map_eq_some_iff.mp h
  rw [Ends, scan_append hl, scan_of_finish hr hb.1, hb.2]
  simp

theorem ends_flatMap {α : Type} {xs : List α} {f : α → Text} {g : α → List Mention}
    (h : ∀ z ∈ xs, Ends (f z) (g z)) : Ends (xs.flatMap f) (xs.flatMap g) := by
  induction xs with
  | nil => rfl
  | cons z zs ih =>
    obtain ⟨hz, hzs⟩ := List.forall_mem_cons.mp h
    exact hz.append (ih hzs)

theorem reads_join {α : Type} {xs : List α} {f : α → Text} {g : α → List Mention}
    (h : ∀ z ∈ xs, Reads (f z) (g z)) : Reads (Text.join ", " (xs.map f)) (xs.flatMap g) := by
  induction xs with
  | nil => rfl
  | cons z zs ih =>
    obtain ⟨hz, hzs⟩ := List.forall_mem_cons.mp h
    cases zs with
    | nil => simpa [Text.join, List.intercalate_singleton] using hz
    | cons w ws =>
      have hcomma : Joins ", ".toList [] := by decide
      have hj : Text.join ", " ((z :: w :: ws).map f) =
          f z ++ (", ".toList ++ Text.join ", " ((w :: ws).map f)) := by
        simp [Text.join, List.intercalate_cons_cons]
      rw [hj, List.flatMap_cons]
      exact hz.closed (hcomma.then (ih hzs))

end Concatenation

theorem scan_word {word : Text} (h : Name.IsPlain word) (read : Text) :
    scan (.word read) word = some (.word (read ++ word), []) := by
  induction word generalizing read with
  | nil => simp [scan]
  | cons c word ih =>
    obtain ⟨hc, hw⟩ := List.forall_mem_cons.mp h
    rw [scan_cons, step, if_pos hc, Option.bind_some, ih hw]
    simp

theorem reads_word {word : Text} (h : Name.IsProper word) : Reads word (mention word false) := by
  obtain ⟨c, rest, rfl⟩ := List.exists_cons_of_ne_nil h.nonempty
  obtain ⟨hc, hw⟩ := List.forall_mem_cons.mp h.plain
  rw [Reads, read?, readFrom, scan_cons, step, if_pos hc, Option.bind_some, scan_word hw]
  rfl

theorem scan_attribute {word : Text} (h : Name.IsPlain word) :
    scan .attribute word = some (.attribute, []) := by
  induction word with
  | nil => rfl
  | cons c word ih =>
    obtain ⟨hc, hw⟩ := List.forall_mem_cons.mp h
    rw [scan_cons, step, if_pos hc, Option.bind_some, ih hw]
    rfl

theorem closes_attribute {word : Text} (h : Name.IsPlain word) : Closes ('.' :: word) [] := by
  refine ⟨rfl, ?_⟩
  have hs : step .between '.' = some (.point, []) := by decide
  rw [Reads, read?, readFrom, scan_cons, hs]
  cases word with
  | nil => rfl
  | cons c word =>
    obtain ⟨hc, hw⟩ := List.forall_mem_cons.mp h
    rw [Option.bind_some, scan_cons, step, if_pos hc, Option.bind_some, scan_attribute hw]
    rfl

theorem scan_escapeChar (c : Char) :
    scan .quoted (Module.escapeChar c) = some (.quoted, []) := by
  rcases Module.escapeChar_cases c with ⟨e, he, hl, -⟩ | ⟨he, hq, hb, hn, -⟩
  · have hn : e ≠ '\n' := by
      rintro rfl
      have hl' : Module.escapes.lookup '\n' = none := by decide
      rw [hl'] at hl
      cases hl
    rw [he]
    simp [scan, step, hn]
  · rw [he]
    simp [scan, step, hq, hb, hn]

theorem scan_escaped (t : Text) :
    scan .quoted (t.flatMap Module.escapeChar) = some (.quoted, []) := by
  induction t with
  | nil => rfl
  | cons c t ih =>
    rw [List.flatMap_cons, scan_append (scan_escapeChar c), ih]
    rfl

theorem reads_quote (t : Text) : Reads (Module.quote t) [] := by
  have hopen : scan .between "'".toList = some (.quoted, []) := by decide
  rw [Module.quote, Reads, read?, List.append_assoc, readFrom_append hopen,
    readFrom_append (scan_escaped t)]
  decide

end Bindery.Code

namespace Bindery.Text

/-- String literals and their characters; no literal is decoded to tell them. -/
inductive Spells : List String → List Text → Prop where
  | nil : Spells [] []
  | cons (text : Text) {strings : List String} {texts : List Text} :
    Spells strings texts → Spells (String.ofList text :: strings) (text :: texts)

theorem Spells.map_toList {strings : List String} {texts : List Text} (h : Spells strings texts) :
    strings.map String.toList = texts := by
  induction h with
  | nil => rfl
  | cons text _ ih => rw [List.map_cons, ih, String.toList_ofList]

theorem check_toList {p : Text → Bool} (t : Text) (h : p t = true) :
    p (String.ofList t).toList = true := by
  rw [String.toList_ofList]
  exact h

theorem check_ofLines {p : Text → Bool} {strings : List String} {lines : List Text}
    (spelled : Spells strings lines)
    (check : p (lines.flatMap fun line => line ++ ['\n']) = true) :
    p (ofLines strings) = true := by
  rw [← spelled.map_toList, List.flatMap_map] at check
  exact check

end Bindery.Text

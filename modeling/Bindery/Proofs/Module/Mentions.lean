import Bindery.Module.Block
import Bindery.Proofs.Code.Reading
import Bindery.Proofs.Module.ClassUse

namespace Bindery

namespace Code

/-- A word that begins with a digit, such as a number. -/
structure IsNumeral (t : Text) : Prop where
  plain : Name.IsPlain t
  digit : Name.startsWithDigit t = true

namespace IsNumeral

theorem append {a b : Text} (ha : IsNumeral a) (hb : Name.IsPlain b) : IsNumeral (a ++ b) := by
  refine ⟨ha.plain.append hb, ?_⟩
  cases a with
  | nil => exact absurd ha.digit (by decide)
  | cons c a => exact ha.digit

theorem take {a : Text} (ha : IsNumeral a) {n : Nat} (hn : 0 < n) : IsNumeral (a.take n) := by
  refine ⟨fun c hc => ha.plain c (List.mem_of_mem_take hc), ?_⟩
  obtain ⟨n, rfl⟩ : ∃ m, n = m + 1 := ⟨n - 1, by omega⟩
  cases a with
  | nil => exact absurd ha.digit (by decide)
  | cons c a => exact ha.digit

theorem reads {a : Text} (ha : IsNumeral a) : Reads a [] := by
  have hn : a ≠ [] := by
    rintro rfl
    exact absurd ha.digit (by decide)
  have hr := reads_word ⟨ha.plain, hn⟩
  rwa [mention, if_pos ha.digit] at hr

theorem reads_point {a b : Text} (ha : IsNumeral a) (hb : Name.IsPlain b) :
    Reads (a ++ '.' :: b) [] :=
  ha.reads.enclosed (closes_attribute hb)

end IsNumeral

theorem isNumeral_ofNat (n : Nat) : IsNumeral (Text.ofNat n) := by
  refine ⟨Name.isPlain_ofNat n, ?_⟩
  have hn : Text.ofNat n ≠ [] := Nat.toDigits_ne_nil
  obtain ⟨c, rest, hc⟩ := List.exists_cons_of_ne_nil hn
  have hd : c.isDigit = true := by
    apply Nat.isDigit_of_mem_toDigits (b := 10) (n := n) (by decide) (by decide)
    change c ∈ Text.ofNat n
    rw [hc]
    exact List.mem_cons_self
  rw [hc]
  simpa [Name.startsWithDigit, Char.isDigit, Char.le_def] using hd

end Code

open Code (Mention mention words call Reads Ends Joins Closes IsNumeral isNumeral_ofNat)

def Scalar.mentions : Scalar → List Mention
  | .json => words ["Dict", "str", "Any"]
  | .record => words ["Tuple", "Any"]
  | s => mention s.pythonType false

theorem Scalar.reads_pythonType (s : Scalar) : Reads s.pythonType s.mentions := by
  cases s <;> decide

namespace Hint

def mentions : Hint → List Mention
  | .none => words ["None"]
  | .any => words ["Any"]
  | .scalar s => s.mentions
  | .named className => mention className false
  | .list item => words ["List"] ++ item.mentions
  | .optional item => words ["Optional"] ++ item.mentions

theorem reads_render {h : Hint} (hp : ∀ c ∈ h.classNames, Name.IsProper c) :
    Reads h.render h.mentions := by
  have hclose : Closes "]".toList [] := by decide
  induction h with
  | none => decide
  | any => decide
  | scalar s => exact s.reads_pythonType
  | named className => exact Code.reads_word (hp className List.mem_cons_self)
  | list item ih =>
    have hopen : Ends "List[".toList (words ["List"]) := by decide
    exact (hopen.then (ih hp)).enclosed hclose
  | optional item ih =>
    have hopen : Ends "Optional[".toList (words ["Optional"]) := by decide
    exact (hopen.then (ih hp)).enclosed hclose

end Hint

namespace Descriptor

/-- The names in a descriptor; the kinds and the keys of enums are string literals. -/
def mentions : Descriptor → List Mention
  | .plain => words ["None"]
  | .scalar _ | .enum _ => []
  | .record className => mention className false
  | .list item => item.mentions

theorem reads_render {d : Descriptor} (hp : ∀ c ∈ d.classNames, Name.IsProper c) :
    Reads d.render d.mentions := by
  have hclose : Closes ")".toList [] := by decide
  induction d with
  | plain => decide
  | scalar converter =>
    have hopen : Ends "('scalar', ".toList [] := by decide
    exact (hopen.then (Code.reads_quote converter.name)).enclosed hclose
  | enum sqlName =>
    have hopen : Ends "('enum', ".toList [] := by decide
    exact (hopen.then (Code.reads_quote sqlName)).enclosed hclose
  | record className =>
    have hopen : Ends "('record', ".toList [] := by decide
    have hname := Code.reads_word (hp className List.mem_cons_self)
    exact (hopen.then hname).enclosed hclose
  | list item ih =>
    have hopen : Ends "('list', ".toList [] := by decide
    exact (hopen.then (ih hp)).enclosed hclose

end Descriptor

namespace Binary64

theorem reads_positional {digits : Text} (h : IsNumeral digits) (point : Int) :
    Reads (positional digits point) [] := by
  have hz (n : Nat) : Name.IsPlain (List.replicate n '0') := by
    intro c hc
    rw [List.eq_of_mem_replicate hc]
    decide
  have hzero : IsNumeral ['0'] := ⟨Name.isPlain_of_all (by decide), by decide⟩
  unfold positional
  split_ifs with hp hl
  · simpa using hzero.reads_point ((hz _).append h.plain)
  · have hd : Name.IsPlain (digits.drop point.toNat) :=
      fun c hc => h.plain c (List.mem_of_mem_drop hc)
    simpa using (h.take (by omega)).reads_point hd
  · simpa using (h.append (hz _)).reads_point hzero.plain

theorem closes_minus {power : Text} (h : Reads power []) : Closes ('-' :: power) [] := by
  have hm : Joins ['-'] [] := by decide
  exact hm.then h

theorem reads_scientific {digits : Text} (h : IsNumeral digits) (exponent : Int) :
    Reads (scientific digits exponent) [] := by
  have hlead : IsNumeral (digits.take 1) := h.take (by decide)
  have he : Name.IsPlain ['e'] := Name.isPlain_of_all (by decide)
  have hpower := isNumeral_ofNat exponent.natAbs
  have htail : Name.IsPlain digits.tail := fun c hc => h.plain c (List.mem_of_mem_tail hc)
  simp only [scientific]
  split_ifs with hf hn hn
  · simpa using (hlead.append he).reads.enclosed (closes_minus hpower.reads)
  · simpa using ((hlead.append he).append hpower.plain).reads
  · simpa using (hlead.reads_point (htail.append he)).enclosed (closes_minus hpower.reads)
  · simpa using hlead.reads_point (htail.append (he.append hpower.plain))

theorem reads_render (layout : Layout) (x : Binary64) : Reads (x.render layout) [] := by
  have hsign {t : Text} (ht : Reads t []) :
      Reads ((if x.negative then "-" else "" : Text) ++ t) [] := by
    split
    · exact (closes_minus ht).2
    · exact ht
  have hzero : Reads "0.0".toList [] := by decide
  unfold render
  dsimp only
  split
  · exact hsign hzero
  · split
    · exact hsign (reads_positional (isNumeral_ofNat _) _)
    · exact hsign (reads_scientific (isNumeral_ofNat _) _)

end Binary64

namespace Literal

/-- The names in a literal; a member is reached through its class. -/
def mentions : Literal → List Mention
  | .integer _ | .float _ | .text _ => []
  | .decimal _ => [call "Decimal"]
  | .boolean value => words [if value then "True" else "False"]
  | .uuid _ => [call "UUID"]
  | .member className _ => mention className false

/-- A class and its member are written with the characters of names. -/
def IsProper : Literal → Prop
  | .member className name => Name.IsProper className ∧ Name.IsPlain name
  | _ => True

theorem reads_render {l : Literal} (hp : l.IsProper) : Reads l.render l.mentions := by
  have hclose : Closes ")".toList [] := by decide
  cases l with
  | integer value =>
    have hn := (isNumeral_ofNat value.natAbs).reads
    have hm : Ends "-".toList [] := by decide
    unfold render
    dsimp only
    split
    · exact hm.then hn
    · exact hn
  | float value => exact value.reads_render floatLayout
  | decimal numeral =>
    have hopen : Ends "Decimal(".toList [call "Decimal"] := by decide
    exact (hopen.then (Code.reads_quote numeral)).enclosed hclose
  | boolean value => cases value <;> decide
  | text value => exact Code.reads_quote value
  | uuid value =>
    have hopen : Ends "UUID(".toList [call "UUID"] := by decide
    exact (hopen.then (Code.reads_quote value)).enclosed hclose
  | member className name =>
    have hr := (Code.reads_word hp.1).enclosed (Code.closes_attribute hp.2)
    unfold render mentions
    simpa using hr

end Literal

namespace PassedValue

def identifier : PassedValue → Text
  | .plain identifier | .json identifier | .member identifier | .members identifier => identifier

def mentions : PassedValue → List Mention
  | .plain identifier => mention identifier false
  | .json identifier => [call "_encode_json"] ++ mention identifier false
  | .member identifier =>
    mention identifier false ++ (words ["if"] ++ [call "isinstance"] ++
      (mention identifier false ++ (words ["Enum", "else"] ++ mention identifier false)))
  | .members identifier =>
    words ["v", "if"] ++ [call "isinstance"] ++
      words ["v", "Enum", "else", "v", "for", "v", "in"] ++
      (mention identifier false ++ (words ["if"] ++ (mention identifier false ++
        words ["is", "not", "None", "else", "None"])))

theorem reads_render {v : PassedValue} (hp : Name.IsProper v.identifier) :
    Reads v.render v.mentions := by
  cases v with
  | plain identifier => exact Code.reads_word hp
  | json identifier =>
    have hi : Reads identifier (mention identifier false) := Code.reads_word hp
    have hopen : Ends "_encode_json(".toList [call "_encode_json"] := by decide
    have hclose : Closes ")".toList [] := by decide
    exact (hopen.then hi).enclosed hclose
  | member identifier =>
    have hi : Reads identifier (mention identifier false) := Code.reads_word hp
    have htest : Joins ".value if isinstance(".toList (words ["if"] ++ [call "isinstance"]) := by
      decide
    have helse : Joins ", Enum) else ".toList (words ["Enum", "else"]) := by decide
    have hr := hi.joined htest (hi.joined helse hi)
    unfold render mentions
    simpa only [List.append_assoc] using hr
  | members identifier =>
    have hi : Reads identifier (mention identifier false) := Code.reads_word hp
    have hopen : Ends "[v.value if isinstance(v, Enum) else v for v in ".toList
        (words ["v", "if"] ++ [call "isinstance"] ++
          words ["v", "Enum", "else", "v", "for", "v", "in"]) := by
      decide
    have hif : Joins "] if ".toList (words ["if"]) := by decide
    have hnone : Closes " is not None else None".toList
        (words ["is", "not", "None", "else", "None"]) := by decide
    have hr := hopen.then (hi.joined hif (hi.closed hnone))
    unfold render mentions
    simpa only [List.append_assoc] using hr

end PassedValue

theorem ParameterCode.identifier_valueOf (a : Argument) :
    (valueOf a).identifier = a.identifier := by
  unfold valueOf
  split
  · rfl
  · split
    · split <;> rfl
    · rfl

namespace RowValue

def mentions : RowValue → List Mention
  | .first => words ["row"]
  | .decoded descriptor => [call "_decode_value"] ++ (descriptor.mentions ++ words ["row"])
  | .record className keepEmpty =>
    [call "_decode_row"] ++ (mention className false ++
      words (if keepEmpty then ["colnames", "row", "False"] else ["colnames", "row"]))
  | .dictionary => [call "dict", call "zip"] ++ words ["colnames", "row"]

theorem reads_render {v : RowValue} (hp : ∀ c ∈ v.classNames, Name.IsProper c) :
    Reads v.render v.mentions := by
  cases v with
  | first => decide
  | decoded descriptor =>
    have hopen : Ends "_decode_value(".toList [call "_decode_value"] := by decide
    have hrow : Closes ", row[0])".toList (words ["row"]) := by decide
    have hr := hopen.then ((Descriptor.reads_render hp).closed hrow)
    unfold render mentions
    simpa only [List.append_assoc] using hr
  | record className keepEmpty =>
    have hopen : Ends "_decode_row(".toList [call "_decode_row"] := by decide
    have hname := Code.reads_word (hp className List.mem_cons_self)
    have hrow : Closes (", colnames, row" ++ if keepEmpty then ", False)" else ")" : Text)
        (words (if keepEmpty then ["colnames", "row", "False"] else ["colnames", "row"])) := by
      cases keepEmpty <;> decide
    have hr := hopen.then (hname.closed hrow)
    unfold render mentions
    simpa only [List.append_assoc] using hr
  | dictionary => decide

end RowValue

namespace Fetch

def columnMentions (value : RowValue) : List Mention :=
  if value.usesColumns then words ["colnames", "desc", "for", "desc", "in", "cur"] else []

def mentions : Fetch → List Mention
  | .nothing => []
  | .one value =>
    words ["row", "await", "cur", "if", "row", "is", "None", "return", "None"] ++
      (columnMentions value ++ (words ["return"] ++ value.mentions))
  | .all value =>
    words ["rows", "await", "cur"] ++ (columnMentions value ++ (words ["return"] ++
      (value.mentions ++ words ["for", "row", "in", "rows"])))

/-- The margin of the body of the cursor's block. -/
def margin : Text := Module.indent ++ Module.indent

theorem ends_columns (value : RowValue) :
    Ends (render.columns margin value) (columnMentions value) := by
  unfold render.columns columnMentions
  split
  · decide
  · rfl

theorem reads_render {f : Fetch} (hp : ∀ c ∈ f.classNames, Name.IsProper c) :
    Reads (f.render margin) f.mentions := by
  cases f with
  | nothing => rfl
  | one value =>
    have hopen : Ends (margin ++ "row = await cur.fetchone()\n" ++ margin ++ "if row is None:\n" ++
        margin ++ Module.indent ++ "return None\n")
        (words ["row", "await", "cur", "if", "row", "is", "None", "return", "None"]) := by
      decide +kernel
    have hreturn : Ends (margin ++ "return ") (words ["return"]) := by decide
    have hclose : Closes "\n".toList [] := by decide
    have hvalue := (RowValue.reads_render hp).enclosed hclose
    have hr := hopen.then ((ends_columns value).then (hreturn.then hvalue))
    simp only [List.append_assoc] at hr
    unfold render mentions
    simpa only [List.append_assoc] using hr
  | all value =>
    have hopen : Ends (margin ++ "rows = await cur.fetchall()\n")
        (words ["rows", "await", "cur"]) := by decide
    have hreturn : Ends (margin ++ "return [") (words ["return"]) := by decide
    have hloop : Closes " for row in rows]\n".toList (words ["for", "row", "in", "rows"]) := by
      decide
    have hvalue := (RowValue.reads_render hp).closed hloop
    have hr := hopen.then ((ends_columns value).then (hreturn.then hvalue))
    simp only [List.append_assoc] at hr
    unfold render mentions
    simpa only [List.append_assoc] using hr

end Fetch

namespace WrapperCode

/-- The code behind the signature and the docstring. -/
def body (c : WrapperCode) : Text :=
  Module.indent ++ "async with conn.cursor() as cur:\n" ++ Fetch.margin ++ "await cur.execute(" ++
    c.executeArguments ++ ")\n" ++ c.fetch.render Fetch.margin

theorem render_eq (c : WrapperCode) :
    c.render = c.signature ++ Module.docstring c.doc Module.indent ++ c.body := by
  simp only [render, body, Fetch.margin, List.append_assoc]

def mentions (c : WrapperCode) : List Mention :=
  words ["async", "with", "conn", "as", "cur", "await", "cur"] ++
    (c.params.flatMap (fun p => p.value.mentions) ++ c.fetch.mentions)

theorem reads_executeArguments {c : WrapperCode}
    (hp : ∀ p ∈ c.params, Name.IsProper p.value.identifier) :
    Reads c.executeArguments (c.params.flatMap fun p => p.value.mentions) := by
  have hquery := Code.reads_quote c.query
  have hvalues : Reads (Text.join ", " c.values) (c.params.flatMap fun p => p.value.mentions) :=
    Code.reads_join fun p hm => PassedValue.reads_render (hp p hm)
  unfold executeArguments
  dsimp only
  split
  · rename_i he
    rw [List.isEmpty_iff.mp he]
    exact hquery
  · have hopen : Joins ", [".toList [] := by decide
    have hclose : Closes "]".toList [] := by decide
    rw [List.append_assoc, List.append_assoc]
    exact hquery.joined hopen (hvalues.enclosed hclose)

theorem reads_body {c : WrapperCode} (hp : ∀ p ∈ c.params, Name.IsProper p.value.identifier)
    (hf : ∀ name ∈ c.fetch.classNames, Name.IsProper name) : Reads c.body c.mentions := by
  have hopen : Ends (Module.indent ++ "async with conn.cursor() as cur:\n" ++ Fetch.margin ++
      "await cur.execute(") (words ["async", "with", "conn", "as", "cur", "await", "cur"]) := by
    decide
  have hclose : Joins ")\n".toList [] := by decide
  have hr := hopen.then ((reads_executeArguments hp).joined hclose (Fetch.reads_render hf))
  rw [List.nil_append] at hr
  simp only [List.append_assoc] at hr
  simpa only [body, mentions, List.append_assoc] using hr

theorem isProper_identifiers {enums : List EnumClass} {w : Wrapper}
    (ha : ∀ a ∈ w.params, Name.IsProper a.identifier) :
    ∀ p ∈ (ofWrapper enums w).params, Name.IsProper p.value.identifier := by
  intro p hp
  obtain ⟨a, hm, rfl⟩ := List.mem_map.mp hp
  exact (ParameterCode.identifier_valueOf a).symm ▸ ha a hm

theorem reads_body_ofWrapper {enums : List EnumClass} {w : Wrapper}
    (hc : ∀ className ∈ (ofWrapper enums w).classNames, Name.IsProper className)
    (ha : ∀ a ∈ w.params, Name.IsProper a.identifier) :
    Reads (ofWrapper enums w).body (ofWrapper enums w).mentions :=
  reads_body (isProper_identifiers ha) fun name hn => hc name (List.mem_append_right _ hn)

end WrapperCode

namespace RegistrationCall

/-- The names in a registration; the keys are string literals. -/
def mentions : RegistrationCall → List Mention
  | .enum _ className => [call "_register_enum"] ++ mention className false
  | .record className kinds _ =>
    [call "_register_record"] ++
      (mention className false ++ kinds.flatMap fun entry => entry.2.mentions)

def entry (key value : Text) : Text :=
  Module.quote key ++ ": " ++ value

theorem reads_entry {value : Text} {x : List Mention} (h : Reads value x) {key : Text} :
    Reads (entry key value) x := by
  have hcolon : Joins ": ".toList [] := by decide
  rw [entry, List.append_assoc]
  exact (Code.reads_quote key).joined hcolon h

theorem reads_dictionary {α : Type} {xs : List α} {f : α → Text} {g : α → List Mention}
    (h : ∀ x ∈ xs, Reads (f x) (g x)) : Reads (dictionary (xs.map f)) (xs.flatMap g) := by
  have hopen : Ends "\x7b".toList [] := by decide
  have hclose : Closes "\x7d".toList [] := by decide
  exact (hopen.then (Code.reads_join h)).enclosed hclose

theorem reads_kinds {kinds : List (Text × Descriptor)}
    (hp : ∀ entry ∈ kinds, ∀ name ∈ entry.2.classNames, Name.IsProper name) :
    Reads (dictionary (kinds.map fun (key, kind) => entry key kind.render))
      (kinds.flatMap fun entry => entry.2.mentions) :=
  reads_dictionary fun kind hm => reads_entry (Descriptor.reads_render (hp kind hm))

theorem reads_renames (renames : List (Text × Text)) :
    Reads (dictionary (renames.map fun (key, name) => entry key (Module.quote name))) [] := by
  have hr : Reads (dictionary (renames.map fun (key, name) => entry key (Module.quote name)))
      (renames.flatMap fun _ => []) :=
    reads_dictionary fun rename _ => reads_entry (Code.reads_quote rename.2)
  rwa [List.flatMap_eq_nil_iff.mpr fun _ _ => rfl] at hr

theorem ends_render {c : RegistrationCall} (hp : ∀ name ∈ c.classNames, Name.IsProper name) :
    Ends c.render c.mentions := by
  have hcomma : Joins ", ".toList [] := by decide
  have hclose : Joins ")\n".toList [] := by decide
  cases c with
  | enum sqlName className =>
    have hopen : Ends "_register_enum(".toList [call "_register_enum"] := by decide
    have hname := Code.reads_word (hp className List.mem_cons_self)
    have hargs := (Code.reads_quote sqlName).joined hcomma hname
    have hr := hopen.append (hargs.stopped hclose)
    unfold render mentions
    simpa only [List.append_assoc, List.nil_append, List.append_nil] using hr
  | record className kinds renames =>
    have hopen : Ends "_register_record(".toList [call "_register_record"] := by decide
    have hname := Code.reads_word (hp className List.mem_cons_self)
    have hkinds := reads_kinds fun entry hm name hn =>
      hp name (List.mem_cons_of_mem _ (List.mem_flatMap.mpr ⟨entry, hm, hn⟩))
    have hrest : Joins ((if renames.isEmpty then [] else ", " ++ dictionary
        (renames.map fun (key, name) => entry key (Module.quote name)) : Text) ++ ")\n") [] := by
      split
      · exact hclose
      · have hj := hcomma.stop ((reads_renames renames).stopped hclose)
        rwa [List.append_assoc]
    have hargs := hname.joined hcomma hkinds
    have hr := hopen.append (hargs.stopped hrest)
    unfold render mentions
    simpa only [entry, List.append_assoc, List.nil_append, List.append_nil] using hr

theorem reads_all {calls : List RegistrationCall}
    (hp : ∀ name ∈ calls.flatMap classNames, Name.IsProper name) :
    Reads (calls.flatMap render) (calls.flatMap mentions) := by
  apply Ends.reads
  apply Code.ends_flatMap
  intro c hc
  exact ends_render fun name hn => hp name (List.mem_flatMap.mpr ⟨c, hc, hn⟩)

end RegistrationCall

end Bindery

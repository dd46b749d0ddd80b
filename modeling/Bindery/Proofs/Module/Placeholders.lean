import Bindery.Proofs.Binding.ProperNames
import Bindery.Proofs.Module.Mentions
import Bindery.Proofs.Module.Query
import Bindery.Proofs.Token.Boundary

namespace Bindery

namespace Code

/-- The depth of parentheses and brackets behind a character. -/
def nest (depth : Nat) (c : Char) : Nat :=
  if c = '(' ∨ c = '[' then depth + 1 else if c = ')' ∨ c = ']' then depth - 1 else depth

/-- What stands between the commas of a written list outside parentheses and brackets, of which
`depth` are open. -/
def pieces (depth : Nat) : Text → List Text
  | [] => [[]]
  | c :: rest =>
    if c = ',' ∧ depth = 0 then [] :: pieces depth rest
    else (pieces (nest depth c) rest).modifyHead (c :: ·)

def elements (list : Text) : List Text :=
  (pieces 0 list).map Text.trimStart

/-- The depth behind a text, if no comma in it ends an element. -/
def nestedTo? (depth : Nat) : Text → Option Nat
  | [] => some depth
  | c :: rest => if c = ',' ∧ depth = 0 then none else nestedTo? (nest depth c) rest

theorem nestedTo?_append {depth middle : Nat} {front : Text}
    (h : nestedTo? depth front = some middle) (back : Text) :
    nestedTo? depth (front ++ back) = nestedTo? middle back := by
  induction front generalizing depth with
  | nil =>
    cases h
    rfl
  | cons c front ih =>
    rw [nestedTo?] at h
    rw [List.cons_append, nestedTo?]
    split at h
    · cases h
    · rename_i hc
      rw [if_neg hc]
      exact ih h

theorem pieces_append {depth after : Nat} {front : Text} (h : nestedTo? depth front = some after)
    (back : Text) : pieces depth (front ++ back) = (pieces after back).modifyHead (front ++ ·) := by
  induction front generalizing depth with
  | nil =>
    cases h
    rw [List.nil_append]
    cases pieces after back <;> rfl
  | cons c front ih =>
    rw [nestedTo?] at h
    rw [List.cons_append, pieces]
    split at h
    · cases h
    · rename_i hc
      rw [if_neg hc, ih h]
      cases pieces after back <;> rfl

theorem nestedTo?_plain {word : Text} (h : Name.IsPlain word) (depth : Nat) :
    nestedTo? depth word = some depth := by
  induction word with
  | nil => rfl
  | cons c word ih =>
    obtain ⟨hc, hw⟩ := List.forall_mem_cons.mp h
    have hne {d : Char} (hd : Name.isIdentifierChar d = false) : c ≠ d := by
      rintro rfl
      rw [hc] at hd
      cases hd
    have hcomma : c ≠ ',' := hne (by decide)
    have hnest : nest depth c = depth := by
      have ho : c ≠ '(' := hne (by decide)
      have ho' : c ≠ '[' := hne (by decide)
      have he : c ≠ ')' := hne (by decide)
      have he' : c ≠ ']' := hne (by decide)
      simp [nest, ho, ho', he, he']
    rw [nestedTo?, if_neg fun h => hcomma h.1, hnest]
    exact ih hw

/-- A text that is one element of any list that it stands in. -/
structure IsElement (t : Text) : Prop where
  closed : nestedTo? 0 t = some 0
  starts : Text.trimStart t = t

theorem pieces_join {values : List Text} (h : ∀ v ∈ values, IsElement v) (first : Text)
    (hf : nestedTo? 0 first = some 0) :
    pieces 0 (Text.join ", " (first :: values)) = first :: values.map (' ' :: ·) := by
  have hs : ", ".toList = [',', ' '] := by decide
  induction values generalizing first with
  | nil =>
    rw [Text.join, List.intercalate_singleton, ← List.append_nil first, pieces_append hf]
    simp [pieces]
  | cons second values ih =>
    obtain ⟨hv, hvs⟩ := List.forall_mem_cons.mp h
    have hblank : nestedTo? 0 (' ' :: second) = some 0 := hv.closed
    have hrest := ih hvs (' ' :: second) hblank
    have hj : Text.join ", " (first :: second :: values) =
        first ++ ',' :: Text.join ", " ((' ' :: second) :: values) := by
      cases values <;> simp [Text.join, hs, List.intercalate_cons_cons, List.intercalate_singleton]
    rw [hj, pieces_append hf, pieces, if_pos ⟨rfl, rfl⟩, hrest]
    simp

theorem elements_join {values : List Text} (h : ∀ v ∈ values, IsElement v) (hn : values ≠ []) :
    elements (Text.join ", " values) = values := by
  obtain ⟨first, values, rfl⟩ := List.exists_cons_of_ne_nil hn
  obtain ⟨hf, hvs⟩ := List.forall_mem_cons.mp h
  have htrim : values.map (Text.trimStart ∘ (' ' :: ·)) = values.map id :=
    List.map_congr_left fun v hv => (hvs v hv).starts
  rw [elements, pieces_join hvs first hf.closed, List.map_cons, hf.starts, List.map_map, htrim,
    List.map_id]

end Code

theorem Name.IsProper.trimStart_append {name : Text} (h : IsProper name) (rest : Text) :
    Text.trimStart (name ++ rest) = name ++ rest := by
  obtain ⟨c, more, rfl⟩ := List.exists_cons_of_ne_nil h.nonempty
  have hb : Text.isBlank c = false := by
    apply isNameChar_not_blank
    have hc := h.plain c List.mem_cons_self
    rw [Lexeme.isNameChar, Bool.or_eq_true]
    exact .inl hc
  rw [List.cons_append, Text.trimStart, List.dropWhile_cons_of_neg (by simp [hb])]

theorem PassedValue.isElement_render {v : PassedValue} (h : Name.IsProper v.identifier) :
    Code.IsElement v.render := by
  cases v with
  | plain identifier =>
    have hi : Name.IsProper identifier := h
    have ht := hi.trimStart_append []
    rw [List.append_nil] at ht
    exact ⟨Code.nestedTo?_plain hi.plain 0, ht⟩
  | json identifier =>
    have hi (depth : Nat) : Code.nestedTo? depth identifier = some depth :=
      Code.nestedTo?_plain h.plain depth
    have hopen : Code.nestedTo? 0 "_encode_json(".toList = some 1 := by decide
    have hclose : Code.nestedTo? 1 ")".toList = some 0 := by decide
    refine ⟨?_, rfl⟩
    unfold render
    dsimp only
    rw [List.append_assoc, Code.nestedTo?_append hopen, Code.nestedTo?_append (hi 1), hclose]
  | member identifier =>
    have hi (depth : Nat) : Code.nestedTo? depth identifier = some depth :=
      Code.nestedTo?_plain h.plain depth
    have htest : Code.nestedTo? 0 ".value if isinstance(".toList = some 1 := by decide
    have helse : Code.nestedTo? 1 ", Enum) else ".toList = some 0 := by decide
    unfold render
    simp only [List.append_assoc]
    refine ⟨?_, h.trimStart_append _⟩
    rw [Code.nestedTo?_append (hi 0), Code.nestedTo?_append htest, Code.nestedTo?_append (hi 1),
      Code.nestedTo?_append helse, hi 0]
  | members identifier =>
    have hi (depth : Nat) : Code.nestedTo? depth identifier = some depth :=
      Code.nestedTo?_plain h.plain depth
    have hopen : Code.nestedTo? 0 "[v.value if isinstance(v, Enum) else v for v in ".toList =
        some 1 := by decide
    have hif : Code.nestedTo? 1 "] if ".toList = some 0 := by decide
    have hnone : Code.nestedTo? 0 " is not None else None".toList = some 0 := by decide
    refine ⟨?_, rfl⟩
    unfold render
    simp only [List.append_assoc]
    rw [Code.nestedTo?_append hopen, Code.nestedTo?_append (hi 1), Code.nestedTo?_append hif,
      Code.nestedTo?_append (hi 0), hnone]

namespace Argument

/-- The value of a parameter as SQL, with the cast of JSON and enum parameters. -/
def castValue (a : Argument) (value : Text) : Text :=
  if a.type.isJson then value ++ "::" ++ ParameterCode.jsonCast a.sqlType
  else if a.type.enumRef?.isSome then value ++ "::" ++ a.sqlType
  else value

/--
The element that passes the value of a parameter: JSON is encoded, and of the members of an enum,
one of them or those of an array, the values are taken.
-/
def passed (a : Argument) : Text :=
  let x := a.identifier
  if a.type.isJson then "_encode_json(" ++ x ++ ")"
  else if a.type.enumRef?.isSome then
    match a.type with
    | .array _ =>
      "[v.value if isinstance(v, Enum) else v for v in " ++ x ++ "] if " ++ x ++
        " is not None else None"
    | _ => x ++ ".value if isinstance(" ++ x ++ ", Enum) else " ++ x
  else x

def inCall (a : Argument) (default : Option Default) (value : Text) : Text :=
  let cast := a.castValue value
  let guarded :=
    match default with
    | some (.sql expression) => "COALESCE(" ++ cast ++ ", " ++ expression ++ ")"
    | _ => cast
  if a.isVariadic then "VARIADIC " ++ guarded else guarded

end Argument

namespace Wrapper

/-- How a statement begins that calls the function. -/
def selection (w : Wrapper) : Text :=
  if w.isTableShaped then "SELECT * FROM " else "SELECT "

def statement (enums : List EnumClass) (w : Wrapper) (values : List Text) : Text :=
  w.selection ++ w.callName ++ "(" ++ Text.join ", " (List.zipWith
    (fun a value => a.inCall (Default.ofArgument? enums a) value) w.params values) ++ ")"

end Wrapper

namespace ParameterCode

theorem render_valueOf (a : Argument) : (valueOf a).render = a.passed := by
  unfold valueOf Argument.passed
  dsimp only
  by_cases hj : a.type.isJson = true
  · rw [if_pos hj, if_pos hj]
    rfl
  · rw [if_neg hj, if_neg hj]
    split
    · cases a.type <;> rfl
    · rfl

open Query

theorem sends_castPlaceholder (a : Argument) (value : Text) :
    Sends (castPlaceholder a) [value] (a.castValue value) := by
  have hcast (type : Text) (cast : Text) (h : Sends type [] cast) :
      Sends ("%s::".toList ++ type) [value] (value ++ "::".toList ++ cast) := by
    have hs : "%s::".toList = "%s".toList ++ "::".toList := by decide
    have hcolons : Sends "::".toList [] "::".toList := sends_text (by decide)
    rw [hs]
    exact ((sends_place value).append hcolons).append h
  unfold castPlaceholder Argument.castValue
  split
  · apply hcast
    apply sends_text
    unfold jsonCast
    split <;> decide
  · split
    · exact hcast _ _ (sends_escaped a.sqlType)
    · exact sends_place value

theorem sends_placeholder (a : Argument) (default : Option Default) (value : Text) :
    Sends (placeholderOf a default) [value] (a.inCall default value) := by
  have hvariadic {text out : Text} (h : Sends text [value] out) :
      Sends (if a.isVariadic then "VARIADIC ".toList ++ text else text) [value]
        (if a.isVariadic then "VARIADIC ".toList ++ out else out) := by
    split
    · exact (sends_text (by decide)).append h
    · exact h
  have hcast := sends_castPlaceholder a value
  cases default with
  | none => exact hvariadic hcast
  | some default =>
    cases default with
    | null => exact hvariadic hcast
    | literal literal => exact hvariadic hcast
    | sql expression =>
      have hopen : Sends "COALESCE(".toList [] "COALESCE(".toList := sends_text (by decide)
      have hcomma : Sends ", ".toList [] ", ".toList := sends_text (by decide)
      have hclose : Sends ")".toList [] ")".toList := sends_text (by decide)
      exact hvariadic ((((hopen.append hcast).append hcomma).append
        (sends_escaped expression)).append hclose)

end ParameterCode

def Default.declared : Default → Text
  | .literal value => value.render
  | .null | .sql _ => "None"

/-- The declaration of a parameter: its name and its hint, and behind an equals sign what stands for
its default, exactly if the parameter is optional. -/
def Argument.DeclaredBy (enums : List EnumClass) (a : Argument) (declaration : Text) : Prop :=
  ∃ front, '=' ∉ front ∧ a.identifier ++ ": ".toList <+: front ∧
    if a.isOptional then ∃ default, Default.ofArgument? enums a = some default ∧
      declaration = front ++ " = ".toList ++ default.declared
    else declaration = front

theorem Name.IsPlain.equals_not_mem {name : Text} (h : IsPlain name) : '=' ∉ name := by
  intro he
  exact absurd (h '=' he) (by decide)

theorem Hint.equals_not_mem {h : Hint} (hp : ∀ c ∈ h.classNames, Name.IsProper c) :
    '=' ∉ h.render := by
  have hclose : '=' ∉ "]".toList := by decide
  have hwrap (opening item : Text) (ho : '=' ∉ opening) (hi : '=' ∉ item) :
      '=' ∉ opening ++ item ++ "]".toList := by
    simp only [List.mem_append, ho, hi, hclose, or_self, not_false_eq_true]
  induction h with
  | none => decide
  | any => decide
  | scalar s => cases s <;> decide
  | named className => exact (hp className List.mem_cons_self).plain.equals_not_mem
  | list item ih => exact hwrap "List[" item.render (by decide) (ih hp)
  | optional item ih => exact hwrap "Optional[" item.render (by decide) (ih hp)

namespace ParameterCode

theorem declaration_of_none {p : ParameterCode} (h : p.default = none) :
    p.declaration = p.identifier ++ ": ".toList ++ p.hint.render := by
  rw [declaration, h]

theorem declaration_of_default {p : ParameterCode} {d : Default} (h : p.default = some d) :
    p.declaration =
      p.identifier ++ ": ".toList ++ p.hint.render ++ " = ".toList ++ d.declared := by
  have hnone (t : Text) : t ++ " = None".toList = t ++ " = ".toList ++ "None".toList := by
    rw [List.append_assoc]
    exact congrArg (t ++ ·) (by decide)
  rw [declaration, h]
  cases d with
  | literal value => rfl
  | null => exact hnone _
  | sql expression => exact hnone _

theorem declaredBy_declaration {enums : List EnumClass} {a : Argument}
    (ho : a.isOptional = a.default.isSome) (hi : Name.IsProper a.identifier)
    (hc : ∀ className, a.type.className? = some className → Name.IsProper className) :
    a.DeclaredBy enums (ofArgument enums a).declaration := by
  have hhint : '=' ∉ (a.type.hintFor a.isOptional).render := by
    apply Hint.equals_not_mem
    intro className hn
    rw [ValueType.classNames_hintFor, Option.mem_toList] at hn
    exact hc className hn
  refine ⟨a.identifier ++ ": ".toList ++ (a.type.hintFor a.isOptional).render, ?_,
    List.prefix_append _ _, ?_⟩
  · have hcolon : '=' ∉ ": ".toList := by decide
    simp only [List.mem_append, hi.plain.equals_not_mem, hcolon, hhint, or_self,
      not_false_eq_true]
  · cases hd : a.default with
    | none =>
      have hopt : a.isOptional = false := by rw [ho, hd, Option.isSome_none]
      have hn : (ofArgument enums a).default = none := by
        change Default.ofArgument? enums a = none
        rw [Default.ofArgument?, hd]
        rfl
      rw [hopt, if_neg Bool.false_ne_true, ← hopt]
      exact declaration_of_none hn
    | some value =>
      obtain ⟨default, he⟩ : ∃ default, Default.ofArgument? enums a = some default := by
        rw [Default.ofArgument?, hd]
        exact ⟨_, rfl⟩
      have hopt : a.isOptional = true := by rw [ho, hd, Option.isSome_some]
      have hs : (ofArgument enums a).default = some default := he
      rw [if_pos hopt]
      exact ⟨default, he, declaration_of_default hs⟩

end ParameterCode

namespace WrapperCode

theorem exists_signature (c : WrapperCode) :
    ∃ opening separator closing, separator ∈ [", ".toList, ",\n    ".toList] ∧
      c.signature = opening ++ Text.join separator
        ("conn: AsyncConnection".toList :: c.params.map ParameterCode.declaration) ++ closing := by
  have hlisted (params : List Text) (first : Text) :
      ((first :: params).flatMap fun p => Module.indent ++ p ++ ",\n".toList) =
        Module.indent ++ Text.join ",\n    " (first :: params) ++ ",\n".toList := by
    have hs : ",\n    ".toList = ",\n".toList ++ Module.indent := by decide
    induction params generalizing first with
    | nil => simp [Text.join, List.intercalate_singleton]
    | cons second params ih =>
      rw [List.flatMap_cons, ih, Text.join_cons_cons, hs]
      simp only [List.append_assoc]
  unfold signature
  dsimp only
  split
  · refine ⟨"async def ".toList ++ c.identifier ++ "(".toList, _,
      ") -> ".toList ++ c.result.render ++ ":".toList ++ "\n".toList, List.mem_cons_self, ?_⟩
    simp only [List.append_assoc]
  · refine ⟨"async def ".toList ++ c.identifier ++ "(".toList ++ "\n".toList ++ Module.indent, _,
      ",\n".toList ++ ") -> ".toList ++ c.result.render ++ ":".toList ++ "\n".toList,
      List.mem_cons_of_mem _ List.mem_cons_self, ?_⟩
    rw [hlisted]
    simp only [List.append_assoc]

theorem query_ofWrapper (enums : List EnumClass) (w : Wrapper) :
    (ofWrapper enums w).query = w.selection ++ Module.escapePercent w.callName ++ "(" ++
      Text.join ", " ((ofWrapper enums w).params.map ParameterCode.placeholder) ++ ")" := by
  unfold query Wrapper.selection
  dsimp only [ofWrapper]
  by_cases hs : w.isTableShaped = true
  · simp only [hs, if_true, List.append_assoc]
  · simp only [hs, if_false, Bool.false_eq_true, List.append_assoc]

theorem sends_query (enums : List EnumClass) (w : Wrapper) {values : List Text}
    (h : values.length = w.params.length) :
    Query.Sends (ofWrapper enums w).query values (w.statement enums values) := by
  have hselection : Query.Sends w.selection [] w.selection := by
    apply Query.sends_text
    unfold Wrapper.selection
    split <;> decide
  have hopen : Query.Sends "(".toList [] "(".toList := Query.sends_text (by decide)
  have hclose : Query.Sends ")".toList [] ")".toList := Query.sends_text (by decide)
  have hparams : Query.Sends
      (Text.join ", " ((ofWrapper enums w).params.map ParameterCode.placeholder)) values
      (Text.join ", " (List.zipWith
        (fun a value => a.inCall (Default.ofArgument? enums a) value) w.params values)) := by
    rw [ofWrapper, List.map_map]
    exact Query.sends_join (by decide)
      (fun a _ value => ParameterCode.sends_placeholder a (Default.ofArgument? enums a) value) h
  have hall := (((hselection.append (Query.sends_escaped w.callName)).append hopen).append
    hparams).append hclose
  rw [query_ofWrapper]
  simpa only [Wrapper.statement, List.append_nil, List.nil_append] using hall

/-- The call that runs the query stands in the code of every wrapper. -/
theorem execute_infix_render (c : WrapperCode) :
    "await cur.execute(".toList ++ c.executeArguments ++ ")\n".toList <:+: c.render := by
  unfold render
  dsimp only
  refine ⟨c.signature ++ Module.docstring c.doc Module.indent ++ Module.indent ++
    "async with conn.cursor() as cur:\n".toList ++ (Module.indent ++ Module.indent),
    c.fetch.render (Module.indent ++ Module.indent), ?_⟩
  simp only [List.append_assoc]

theorem executeArguments_of_params {c : WrapperCode} (h : c.params ≠ []) :
    c.executeArguments =
      Module.quote c.query ++ ", [".toList ++ Text.join ", " c.values ++ "]".toList := by
  unfold executeArguments
  dsimp only
  rw [if_neg (by simpa using h)]

theorem values_ofWrapper (enums : List EnumClass) (w : Wrapper) :
    (ofWrapper enums w).values = w.params.map Argument.passed := by
  rw [values, ofWrapper, List.map_map]
  exact List.map_congr_left fun a _ => ParameterCode.render_valueOf a

/-- How the code of a wrapper goes on behind its docstring. -/
def opening : Text :=
  "    async with conn.cursor() as cur:\n        await cur.execute("

/-- The first thing that a wrapper with parameters does is to run its query with the values. -/
theorem render_of_params {c : WrapperCode} (h : c.params ≠ []) :
    c.render = c.signature ++ Module.docstring c.doc Module.indent ++ opening ++
      Module.quote c.query ++ ", [".toList ++ Text.join ", " c.values ++ "])\n".toList ++
      c.fetch.render Fetch.margin := by
  have hclose : "])\n".toList = "]".toList ++ ")\n".toList := by decide
  have hopen : opening = Module.indent ++ "async with conn.cursor() as cur:\n".toList ++
      Fetch.margin ++ "await cur.execute(".toList := by decide
  rw [render_eq, body, executeArguments_of_params h, hopen, hclose]
  simp only [List.append_assoc]

theorem execute_values_infix_render {c : WrapperCode} (h : c.params ≠ []) :
    "await cur.execute(".toList ++ Module.quote c.query ++ ", [".toList ++
      Text.join ", " c.values ++ "])\n".toList <:+: c.render := by
  have hopen : opening = "    async with conn.cursor() as cur:\n        ".toList ++
      "await cur.execute(".toList := by decide
  refine ⟨c.signature ++ Module.docstring c.doc Module.indent ++
    "    async with conn.cursor() as cur:\n        ".toList, c.fetch.render Fetch.margin, ?_⟩
  rw [render_of_params h, hopen]
  simp only [List.append_assoc]

/-- What a wrapper passes lines up with what its query takes. -/
structure Aligned (enums : List EnumClass) (w : Wrapper) (c : WrapperCode) : Prop where
  /-- The code runs the query with a list that has one value for each parameter. -/
  called : ∃ list rest, c.render = c.signature ++ Module.docstring c.doc Module.indent ++ opening ++
      Module.quote c.query ++ ", [".toList ++ list ++ "])\n".toList ++ rest ∧
    Code.elements list = w.params.map Argument.passed
  /-- No two parameters have one name. -/
  distinct : (w.params.map Argument.identifier).Nodup
  /-- The query has one place for each parameter, and no other percent sign is left unescaped. -/
  placed : ∃ parts, Query.read? c.query = some parts ∧ parts.count .place = w.params.length
  /-- With a value for each parameter the statement is sent, and with more or fewer none is. -/
  sent : ∀ values, Query.sent? c.query (some values) =
    if values.length = w.params.length then some (w.statement enums values) else none
  /-- The signature declares the connection and then the parameters, the optional ones with a
  default. -/
  declared : ∃ opening separator closing declarations,
    separator ∈ [", ".toList, ",\n    ".toList] ∧ c.signature = opening ++ Text.join separator
      ("conn: AsyncConnection".toList :: declarations) ++ closing ∧
    List.Forall₂ (Argument.DeclaredBy enums) w.params declarations

end WrapperCode

namespace Binding

/--
Placeholders and values line up in every wrapper that has parameters. The literal that the query is
passed as denotes it exactly if it holds no null character, which is written as it is.
-/
theorem build_aligns_iff {s : Schema} {strict : Bool} {b : Binding} (h : build s strict = .ok b)
    {w : Wrapper} (hw : w ∈ b.wrappers) (hp : w.params ≠ []) :
    let c := WrapperCode.ofWrapper b.enums w
    c.Aligned b.enums w ∧
      (Module.readLiteral? (Module.quote c.query) = some c.query ↔ '\x00' ∉ c.query) := by
  refine ⟨?_, Module.readLiteral?_quote_iff _⟩
  obtain ⟨plans, rfl⟩ := exists_assemble h
  have hproper := namesProper_assemble s plans
  have hnames := hproper.parameters w hw
  have hsends (values : List Text) (hl : values.length = w.params.length) :=
    WrapperCode.sends_query (assemble s plans).enums w hl
  obtain ⟨f, -, identifier, plan, resultClass, rfl⟩ := exists_function hw
  refine ⟨⟨_, _, WrapperCode.render_of_params ?_, ?_⟩, (apart_arguments _ _ f).distinct, ?_,
    Query.sent?_eq_ite hsends, ?_⟩
  · simpa [WrapperCode.ofWrapper] using hp
  · rw [WrapperCode.values_ofWrapper]
    apply Code.elements_join
    · intro value hv
      obtain ⟨a, ha, rfl⟩ := List.mem_map.mp hv
      rw [← ParameterCode.render_valueOf]
      apply PassedValue.isElement_render
      rw [ParameterCode.identifier_valueOf]
      exact hnames a ha
    · simpa using hp
  · obtain ⟨parts, hr, hc, -⟩ := (hsends (List.replicate _ [])
      List.length_replicate).exists_parts
    rw [List.length_replicate] at hc
    exact ⟨parts, hr, hc⟩
  · obtain ⟨opening, separator, closing, hs, he⟩ := WrapperCode.exists_signature _
    refine ⟨opening, separator, closing, _, hs, he, ?_⟩
    rw [WrapperCode.ofWrapper, List.map_map, List.forall₂_map_right_iff, List.forall₂_same]
    intro a ha
    apply ParameterCode.declaredBy_declaration _ (hnames a ha)
    · intro className hc
      have ht := wrapper_type_mem hw (List.mem_append_left _ (List.mem_map_of_mem ha))
      exact hproper.classes className (mem_classNamesInUse ht hc)
    · obtain ⟨p, -, name, rfl⟩ := exists_parameter ha
      rfl

/-- A function with percent signs in its name and in a default. -/
def shareSchema : Schema :=
  { functions := [⟨"\"share%s\"", "share%s", none,
      [⟨some "p_day", .input, "text", some "to_char(now(), '%d')"⟩,
        ⟨none, .variadic, "jsonb", none⟩], ⟨.void, false⟩, .start⟩] }

def shareWrapper : Wrapper :=
  ⟨"\"share%s\"", "share%s", "share_s", none,
    [⟨some "p_day", "day", "text", .scalar .text, true, true, some "to_char(now(), '%d')", false⟩,
      ⟨none, "arg2", "jsonb", .scalar .json, false, false, none, true⟩], ⟨.void, false⟩, .void⟩

/-- The percent signs of the name and of the default take no value and reach the database. -/
theorem build_aligns_iff_of_share :
    let c := WrapperCode.ofWrapper [] shareWrapper
    build shareSchema true = .ok { wrappers := [shareWrapper] } ∧
      c.query = "SELECT \"share%%s\"(COALESCE(%s, to_char(now(), '%%d')), VARIADIC %s::jsonb)" ∧
      Module.readLiteral? (Module.quote c.query) = some c.query ∧
      (∃ list rest, c.render = c.signature ++ Module.docstring c.doc Module.indent ++
          WrapperCode.opening ++ Module.quote c.query ++ ", [".toList ++ list ++ "])\n".toList ++
          rest ∧
        Code.elements list = ["day".toList, "_encode_json(arg2)".toList]) ∧
      Query.sent? c.query (some ["'d'", "'[]'"]) =
        some "SELECT \"share%s\"(COALESCE('d', to_char(now(), '%d')), VARIADIC '[]'::jsonb)" := by
  intro c
  have hb : build shareSchema true = .ok { wrappers := [shareWrapper] } := by decide +kernel
  obtain ⟨ha, hn⟩ := build_aligns_iff hb (w := shareWrapper) List.mem_cons_self
    (List.cons_ne_nil _ _)
  obtain ⟨list, rest, hr, hl⟩ := ha.called
  refine ⟨hb, by decide +kernel, hn.mpr (by decide +kernel), ⟨list, rest, hr, ?_⟩, ?_⟩
  · rw [hl]
    decide +kernel
  · rw [ha.sent, if_pos (by decide)]
    decide +kernel

/-- A function whose default holds a null character. -/
def blankSchema : Schema :=
  { functions := [⟨"f", "f", none, [⟨some "x", .input, "text", some "lower('\x00')"⟩],
      ⟨.void, false⟩, .start⟩] }

def blankWrapper : Wrapper :=
  ⟨"f", "f", "f", none,
    [⟨some "x", "x", "text", .scalar .text, true, true, some "lower('\x00')", false⟩],
    ⟨.void, false⟩, .void⟩

/-- Another literal denotes the query; the one that is written for it denotes nothing. -/
theorem build_query_unreadable :
    Schema.parse "CREATE FUNCTION f(x text DEFAULT lower('\x00'))".toList none = .ok blankSchema ∧
      build blankSchema true = .ok { wrappers := [blankWrapper] } ∧
      Module.quote (WrapperCode.ofWrapper [] blankWrapper).query =
        "'SELECT f(COALESCE(%s, lower(\\'\x00\\')))'".toList ∧
      Module.readLiteral? "'SELECT f(COALESCE(%s, lower(\\'\x00\\')))'".toList = none ∧
      Module.readLiteral? "'SELECT f(COALESCE(%s, lower(\\'\\x00\\')))'".toList =
        some (WrapperCode.ofWrapper [] blankWrapper).query := by
  decide +kernel

end Binding

end Bindery

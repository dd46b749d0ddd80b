import Bindery.Proofs.Module.Mentions
import Bindery.Proofs.Module.Rebinding

namespace Bindery

namespace Code

/-- The words of a body that refer to nothing outside: reserved words and local variables. -/
def ownWords : List Text :=
  ["async", "with", "as", "await", "if", "is", "not", "None", "return", "False", "for", "in",
    "else", "row", "rows", "colnames", "desc", "v"].map String.toList

/-- Code that refers to the `outer` names: it mentions each of them, and besides them only the
`inner` names and words of its own. -/
structure Refers (outer inner : List Text) (mentions : List Mention) : Prop where
  mentioned : ∀ name ∈ outer, ∃ m ∈ mentions, m.name = name
  only : ∀ m ∈ mentions, m.name ∈ outer ∨ m.name ∈ inner ∨ m.name ∈ ownWords

namespace Refers

variable {outer outer' inner inner' : List Text} {x y : List Mention}

theorem append (hx : Refers outer inner x) (hy : Refers outer' inner y) :
    Refers (outer ++ outer') inner (x ++ y) := by
  constructor
  · intro name hn
    rcases List.mem_append.mp hn with hn | hn
    · obtain ⟨m, hm, he⟩ := hx.mentioned name hn
      exact ⟨m, List.mem_append_left _ hm, he⟩
    · obtain ⟨m, hm, he⟩ := hy.mentioned name hn
      exact ⟨m, List.mem_append_right _ hm, he⟩
  · intro m hm
    rcases List.mem_append.mp hm with hm | hm
    · exact (hx.only m hm).imp_left (List.mem_append_left _)
    · exact (hy.only m hm).imp_left (List.mem_append_right _)

theorem mono (h : Refers outer inner x) (hi : inner ⊆ inner') : Refers outer inner' x :=
  ⟨h.mentioned, fun m hm => (h.only m hm).imp_right (Or.imp_left fun hn => hi hn)⟩

theorem flatMap {α : Type} {xs : List α} {names : α → List Text} {f : α → List Mention}
    (h : ∀ a ∈ xs, Refers (names a) inner (f a)) :
    Refers (xs.flatMap names) inner (xs.flatMap f) := by
  induction xs with
  | nil => exact ⟨nofun, nofun⟩
  | cons a xs ih =>
    obtain ⟨ha, hxs⟩ := List.forall_mem_cons.mp h
    exact ha.append (ih hxs)

end Refers

theorem refers_of_all {outer : List Text} {x : List Mention}
    (hm : (outer.all fun name => x.any fun m => m.name == name) = true)
    (ho : (x.all fun m => (outer ++ ownWords).contains m.name) = true) (inner : List Text) :
    Refers outer inner x := by
  constructor
  · intro name hn
    obtain ⟨m, hx, he⟩ := List.any_eq_true.mp (List.all_eq_true.mp hm name hn)
    exact ⟨m, hx, by simpa using he⟩
  · intro m hx
    have hc := List.all_eq_true.mp ho m hx
    rw [List.contains_iff_mem, List.mem_append] at hc
    exact hc.imp_right .inr

theorem refers_inner {name : Text} {inner : List Text} (h : name ∈ inner) (called : Bool) :
    Refers [] inner (mention name called) := by
  refine ⟨nofun, ?_⟩
  intro m hm
  unfold mention at hm
  split at hm
  · cases hm
  · cases List.mem_singleton.mp hm
    exact .inr (.inl h)

theorem refers_outer {name : Text} (h : Name.startsWithDigit name = false) (inner : List Text) :
    Refers [name] inner (mention name false) := by
  have hm : mention name false = [⟨name, false⟩] := by
    rw [mention, h]
    rfl
  rw [hm]
  constructor
  · intro other hn
    exact ⟨_, List.mem_singleton.mpr rfl, (List.mem_singleton.mp hn).symm⟩
  · intro m hx
    cases List.mem_singleton.mp hx
    exact .inl (List.mem_singleton.mpr rfl)

end Code

open Code (Mention mention words call Refers refers_of_all refers_inner refers_outer)

namespace PassedValue

/-- The names other than that of the parameter that a passed value refers to. -/
def outerNames : PassedValue → List Text
  | .plain _ => []
  | .json _ => ["_encode_json"]
  | .member _ | .members _ => ["isinstance", "Enum"]

theorem refers_mentions (v : PassedValue) : Refers v.outerNames [v.identifier] v.mentions := by
  have hi : Refers [] [v.identifier] (mention v.identifier false) :=
    refers_inner (List.mem_singleton.mpr rfl) false
  cases v with
  | plain identifier => exact hi
  | json identifier =>
    have hcall : Refers ["_encode_json".toList] [identifier] [call "_encode_json"] :=
      refers_of_all (by decide) (by decide) _
    exact hcall.append hi
  | member identifier =>
    have htest : Refers ["isinstance".toList] [identifier] (words ["if"] ++ [call "isinstance"]) :=
      refers_of_all (by decide) (by decide) _
    have henum : Refers ["Enum".toList] [identifier] (words ["Enum", "else"]) :=
      refers_of_all (by decide) (by decide) _
    exact hi.append (htest.append (hi.append (henum.append hi)))
  | members identifier =>
    have htest : Refers ["isinstance".toList, "Enum".toList] [identifier]
        (words ["v", "if"] ++ [call "isinstance"] ++
          words ["v", "Enum", "else", "v", "for", "v", "in"]) :=
      refers_of_all (by decide) (by decide) _
    have hif : Refers [] [identifier] (words ["if"]) := refers_of_all (by decide) (by decide) _
    have hnone : Refers [] [identifier] (words ["is", "not", "None", "else", "None"]) :=
      refers_of_all (by decide) (by decide) _
    exact htest.append (hi.append (hif.append (hi.append hnone)))

end PassedValue

theorem Descriptor.refers_mentions {d : Descriptor}
    (h : ∀ c ∈ d.classNames, Name.startsWithDigit c = false) (inner : List Text) :
    Refers d.classNames inner d.mentions := by
  induction d with
  | plain => exact refers_of_all (by decide) (by decide) inner
  | scalar converter => exact refers_of_all rfl rfl inner
  | enum sqlName => exact refers_of_all rfl rfl inner
  | record className => exact refers_outer (h className List.mem_cons_self) inner
  | list item ih => exact ih h

namespace RowValue

/-- The names that a decoded row refers to, apart from the row and its columns. -/
def outerNames : RowValue → List Text
  | .first => []
  | .decoded descriptor => "_decode_value" :: descriptor.classNames
  | .record className _ => ["_decode_row", className]
  | .dictionary => ["dict", "zip"]

theorem refers_mentions {v : RowValue}
    (h : ∀ c ∈ v.classNames, Name.startsWithDigit c = false) (inner : List Text) :
    Refers v.outerNames inner v.mentions := by
  have hrow : Refers [] inner (words ["row"]) := refers_of_all (by decide) (by decide) inner
  cases v with
  | first => exact hrow
  | decoded descriptor =>
    have hd := Descriptor.refers_mentions (d := descriptor) h inner
    have hcall : Refers ["_decode_value".toList] inner [call "_decode_value"] :=
      refers_of_all (by decide) (by decide) inner
    have hr := hcall.append (hd.append hrow)
    rwa [List.append_nil] at hr
  | record className keepEmpty =>
    have hcall : Refers ["_decode_row".toList] inner [call "_decode_row"] :=
      refers_of_all (by decide) (by decide) inner
    have hname := refers_outer (h className List.mem_cons_self) inner
    have hrest : Refers [] inner
        (words (if keepEmpty then ["colnames", "row", "False"] else ["colnames", "row"])) := by
      cases keepEmpty <;> exact refers_of_all (by decide) (by decide) inner
    exact hcall.append (hname.append hrest)
  | dictionary => exact refers_of_all (by decide) (by decide) inner

end RowValue

namespace Fetch

def outerNames : Fetch → List Text
  | .nothing => []
  | .one value | .all value => "cur" :: value.outerNames

theorem refers_mentions {f : Fetch}
    (h : ∀ c ∈ f.classNames, Name.startsWithDigit c = false) (inner : List Text) :
    Refers f.outerNames inner f.mentions := by
  have hreturn : Refers [] inner (words ["return"]) := refers_of_all (by decide) (by decide) inner
  cases f with
  | nothing => exact refers_of_all rfl rfl inner
  | one value =>
    have hopen : Refers ["cur".toList] inner (words ["row", "await", "cur", "if", "row", "is",
        "None", "return", "None"] ++ columnMentions value) := by
      unfold columnMentions
      split <;> exact refers_of_all (by decide) (by decide) inner
    have hr := hopen.append (hreturn.append (RowValue.refers_mentions h inner))
    rwa [List.append_assoc] at hr
  | all value =>
    have hopen : Refers ["cur".toList] inner (words ["rows", "await", "cur"] ++
        columnMentions value) := by
      unfold columnMentions
      split <;> exact refers_of_all (by decide) (by decide) inner
    have hloop : Refers [] inner (words ["for", "row", "in", "rows"]) :=
      refers_of_all (by decide) (by decide) inner
    have hvalue := (RowValue.refers_mentions h inner).append hloop
    rw [List.append_nil] at hvalue
    have hr := hopen.append (hreturn.append hvalue)
    rwa [List.append_assoc] at hr

end Fetch

namespace WrapperCode

/-- The names outside of its parameters and its own variables that the body of a wrapper refers to,
and the connection and the cursor. -/
def outerNames (c : WrapperCode) : List Text :=
  "conn" :: "cur" :: (c.params.flatMap (fun p => p.value.outerNames) ++ c.fetch.outerNames)

theorem refers_mentions {c : WrapperCode}
    (h : ∀ name ∈ c.fetch.classNames, Name.startsWithDigit name = false) :
    Refers c.outerNames (c.params.map fun p => p.value.identifier) c.mentions := by
  have hopen : Refers ["conn".toList, "cur".toList] (c.params.map fun p => p.value.identifier)
      (words ["async", "with", "conn", "as", "cur", "await", "cur"]) :=
    refers_of_all (by decide) (by decide) _
  refine hopen.append (Refers.append (Refers.flatMap ?_) (Fetch.refers_mentions h _))
  intro p hp
  apply p.value.refers_mentions.mono
  intro name hn
  rw [List.mem_singleton.mp hn]
  exact List.mem_map_of_mem (f := fun p => p.value.identifier) hp

end WrapperCode

namespace Binding

section Parameters

variable (f : Signature)

/-- The identifiers of parameters that stand first in a function. -/
def parameterNames (front : List Parameter) : List Text :=
  (Grant.answerAll "_" [] (front.zipIdx.map fun (p, i) =>
    ⟨wantedParameter p i, none, parameterSubject f p i⟩)).map Grant.name

/-- A parameter behind others is called so: it asks for the name, or it asks for one that is gone
and the name is the first numbered one that is free. -/
def Becomes (front : List Parameter) (p : Parameter) (name : Text) : Prop :=
  let wanted := wantedParameter p front.length
  wanted = name ∨ wanted ∈ parameterNames f front ∧
    Grant.IsFirstFree "_" wanted (parameterNames f front) name

/-- One parameter more takes one name more, unless it could only be called as one before it. -/
theorem parameterNames_concat (front : List Parameter) (p : Parameter) :
    ∃ name, parameterNames f (front ++ [p]) = parameterNames f front ++ [name] ∧
      Becomes f front p name ∧
      ∀ other, Becomes f front p other → other = name ∨ other ∈ parameterNames f front := by
  let r : Request :=
    ⟨wantedParameter p front.length, none, parameterSubject f p front.length⟩
  have hmem (name : Text) :
      name ∈ (parameterNames f front).reverse ++ [] ↔ name ∈ parameterNames f front := by simp
  refine ⟨(Grant.answer "_" ((parameterNames f front).reverse ++ []) r).name, ?_, ?_⟩
  · rw [parameterNames, List.zipIdx_append, List.map_append, Grant.answerAll_append,
      List.map_append, Nat.zero_add]
    rfl
  · by_cases hw : wantedParameter p front.length ∈ parameterNames f front
    · have hfree := (Grant.isFirstFree_firstFree "_" (wantedParameter p front.length)
        ((parameterNames f front).reverse ++ [])).of_mem_iff hmem
      rw [Grant.answer, if_pos (List.contains_iff_mem.mpr ((hmem _).mpr hw))]
      refine ⟨.inr ⟨hw, hfree⟩, ?_⟩
      rintro other (rfl | ⟨-, ho⟩)
      · exact .inr hw
      · exact .inl (ho.unique hfree)
    · rw [Grant.answer, if_neg (mt List.contains_iff_mem.mp (mt (hmem _).mp hw))]
      refine ⟨.inl rfl, ?_⟩
      rintro other (rfl | ⟨ho, -⟩)
      · exact .inl rfl
      · exact absurd ho hw

theorem mem_parameterNames_iff {inputs : List Parameter} {name : Text} :
    name ∈ parameterNames f inputs ↔
      ∃ front p back, inputs = front ++ p :: back ∧ Becomes f front p name := by
  induction inputs using List.reverseRecOn with
  | nil => simp [parameterNames, Grant.answerAll]
  | append_singleton front p ih =>
    obtain ⟨granted, hc, hb, hu⟩ := parameterNames_concat f front p
    rw [hc, List.mem_append, List.mem_singleton, ih]
    constructor
    · rintro (⟨first, q, back, rfl, hq⟩ | rfl)
      · exact ⟨first, q, back ++ [p], by simp, hq⟩
      · exact ⟨front, p, [], rfl, hb⟩
    · rintro ⟨first, q, back, he, hq⟩
      rcases List.eq_nil_or_concat back with rfl | ⟨back, last, rfl⟩
      · obtain ⟨rfl, hp⟩ := List.append_inj' he rfl
        cases hp
        rcases hu name hq with hn | hn
        · exact .inr hn
        · exact .inl (ih.mp hn)
      · rw [List.concat_eq_append, ← List.cons_append, ← List.append_assoc] at he
        obtain ⟨rfl, -⟩ := List.append_inj' he rfl
        exact .inl ⟨first, q, back, rfl, hq⟩

theorem mem_parameterNames_iff_of_not_isNumbered {inputs : List Parameter} {name : Text}
    (hn : Grant.isNumbered name = false) :
    name ∈ parameterNames f inputs ↔
      ∃ front p back, inputs = front ++ p :: back ∧ wantedParameter p front.length = name := by
  rw [mem_parameterNames_iff]
  constructor
  · rintro ⟨front, p, back, he, hw | ⟨-, n, -, hname, -⟩⟩
    · exact ⟨front, p, back, he, hw⟩
    · rw [hname, Grant.isNumbered_numbered] at hn
      cases hn
  · rintro ⟨front, p, back, he, hw⟩
    exact ⟨front, p, back, he, .inl hw⟩

end Parameters

section Assembled

variable {s : Schema} {plans : List (Plan × List Diagnostic)} {w : Wrapper}

theorem exists_function_at (hl : (plans.map Prod.fst).length = s.functions.length) {k : Nat}
    (hw : (assemble s plans).wrappers[k]? = some w) :
    ∃ f identifier plan resultClass, s.functions[k]? = some f ∧
      w = (wrapper (namesFor s (plans.map Prod.fst)) s.catalog f identifier plan
        resultClass).value.1 := by
  rw [assemble_wrappers, wrapped_eq, List.map_map, List.getElem?_map] at hw
  obtain ⟨z, hz, rfl⟩ := Option.map_eq_some_iff.mp hw
  refine ⟨z.1.1.1, z.1.1.2, z.1.2, z.2, ?_, rfl⟩
  rw [← (map_placed hl).1, List.getElem?_map, hz]
  rfl

theorem classNamesInUse_of_fetch (hw : w ∈ (assemble s plans).wrappers) {className : Text}
    (h : className ∈ (Fetch.ofWrapper w).classNames) :
    className ∈ (assemble s plans).classNamesInUse := by
  obtain ⟨t, ht, hc⟩ := WrapperCode.classNames_fetch h
  exact mem_classNamesInUse (wrapper_type_mem hw (List.mem_append_right _ ht)) hc

theorem exists_refers (hw : w ∈ (assemble s plans).wrappers) (enums : List EnumClass) :
    ∃ mentions, Code.read? (WrapperCode.ofWrapper enums w).body = some mentions ∧
      Refers (WrapperCode.ofWrapper enums w).outerNames (w.params.map Argument.identifier)
        mentions := by
  have hproper := namesProper_assemble s plans
  have hi : (WrapperCode.ofWrapper enums w).params.map (fun p => p.value.identifier) =
      w.params.map Argument.identifier := by
    rw [WrapperCode.ofWrapper, List.map_map]
    exact List.map_congr_left fun a _ => ParameterCode.identifier_valueOf a
  refine ⟨(WrapperCode.ofWrapper enums w).mentions, WrapperCode.reads_body ?_ ?_, ?_⟩
  · intro p hp
    obtain ⟨a, ha, rfl⟩ := List.mem_map.mp hp
    exact (ParameterCode.identifier_valueOf a).symm ▸ hproper.parameters w hw a ha
  · exact fun className hc => hproper.classes className (classNamesInUse_of_fetch hw hc)
  · rw [← hi]
    apply WrapperCode.refers_mentions
    exact fun className hc => startsWithDigit_classNamesInUse (classNamesInUse_of_fetch hw hc)

end Assembled

/--
What parameters leave alone. The body of a wrapper can be read, and besides its parameters and words
of its own it mentions exactly its outer names. The connection and the cursor are never captured;
any other outer name is captured exactly if some parameter is called so, which for a name that is
not numbered means that some parameter asks for it.
-/
theorem build_captures_iff {s : Schema} {strict : Bool} {b : Binding} (h : build s strict = .ok b)
    {k : Nat} {w : Wrapper} (hw : b.wrappers[k]? = some w) :
    let code := WrapperCode.ofWrapper b.enums w
    let identifiers := w.params.map Argument.identifier
    (∃ body mentions, code.render =
        code.signature ++ Module.docstring code.doc Module.indent ++ body ∧
      Code.read? body = some mentions ∧ Refers code.outerNames identifiers mentions) ∧
    (∀ name ∈ reservedParameters, name ∉ identifiers) ∧
    ∃ f, s.functions[k]? = some f ∧ ∀ name ∈ code.outerNames,
      (name ∈ identifiers ↔
        ∃ front p back, f.inputs = front ++ p :: back ∧ Becomes f front p name) ∧
      (Grant.isNumbered name = false → (name ∈ identifiers ↔
        ∃ front p back, f.inputs = front ++ p :: back ∧
          wantedParameter p front.length = name)) := by
  intro code identifiers
  obtain ⟨plans, hp, rfl⟩ := exists_plans h
  have hl := length_plans hp
  have hm := List.mem_of_getElem? hw
  obtain ⟨mentions, hr, hrefers⟩ := exists_refers hm (assemble s plans).enums
  obtain ⟨f, identifier, plan, resultClass, hf, rfl⟩ := exists_function_at hl hw
  have hi : identifiers = parameterNames f f.inputs := identifiers_arguments _ _ f
  refine ⟨⟨code.body, mentions, code.render_eq, hr, hrefers⟩, ?_, f, hf, ?_⟩
  · intro name hn hc
    exact (apart_arguments _ _ f).unreserved name hc hn
  · intro name _
    rw [hi]
    exact ⟨mem_parameterNames_iff f, mem_parameterNames_iff_of_not_isNumbered f⟩

/-- A function that returns a record and has a parameter with the name of the record's class. -/
def findSchema : Schema where
  catalog := { composites := ⟨[⟨"users", [⟨"id", "int", true, none⟩]⟩], [("users", 0)]⟩ }
  functions := [⟨"find", "find", none, [⟨some "User", .input, "text", none⟩],
    ⟨.composite "users", false⟩, .start⟩]

def findWrapper : Wrapper :=
  ⟨"find", "find", "find", none,
    [⟨some "User", "User", "text", .scalar .text, false, false, none, false⟩],
    ⟨.composite "users", false⟩, .record "User"⟩

def findBinding : Binding where
  records := [⟨"User", "users", .composite, [⟨"id", "id", "int", .scalar .integer, true, false⟩]⟩]
  wrappers := [findWrapper]

/-- Of the names that the body refers to, the class is captured and the support function is not. -/
theorem build_captures_iff_of_find :
    build findSchema true = .ok findBinding ∧
      (WrapperCode.ofWrapper [] findWrapper).outerNames =
        ["conn", "cur", "cur", "_decode_row", "User"].map String.toList ∧
      "User".toList ∈ findWrapper.params.map Argument.identifier ∧
      "_decode_row".toList ∉ findWrapper.params.map Argument.identifier := by
  have hb : build findSchema true = .ok findBinding := by decide +kernel
  have ho : (WrapperCode.ofWrapper [] findWrapper).outerNames =
      ["conn", "cur", "cur", "_decode_row", "User"].map String.toList := by decide +kernel
  obtain ⟨-, -, f, hf, houter⟩ := build_captures_iff hb (k := 0) (w := findWrapper) rfl
  cases hf
  change ∀ name ∈ (WrapperCode.ofWrapper [] findWrapper).outerNames, _ at houter
  rw [ho] at houter
  refine ⟨hb, ho, ?_, ?_⟩
  · exact (houter "User".toList (by decide)).1.mpr ⟨[], _, [], rfl, .inl (by decide)⟩
  · intro hc
    obtain ⟨front, p, back, he, hw⟩ :=
      ((houter "_decode_row".toList (by decide)).2 (by decide)).mp hc
    have hinputs : [⟨some "User", .input, "text", none⟩] = front ++ p :: back := he
    obtain ⟨rfl, hp⟩ | ⟨-, hp⟩ := List.append_eq_singleton_iff.mp hinputs.symm
    · cases hp
      exact absurd hw (by decide)
    · cases hp

/-- A function that returns rows of an undeclared table and has a parameter for a postal code. -/
def nearSource : Text :=
  "CREATE FUNCTION near(p_zip text) RETURNS SETOF places"

def nearSchema : Schema where
  functions := [⟨"near", "near", none, [⟨some "p_zip", .input, "text", none⟩],
    ⟨.tableRows "places", true⟩, .start⟩]

def nearWrapper : Wrapper :=
  ⟨"near", "near", "near", none,
    [⟨some "p_zip", "zip", "text", .scalar .text, false, false, none, false⟩],
    ⟨.tableRows "places", true⟩, .rows⟩

def nearBinding : Binding where
  wrappers := [nearWrapper]
  diagnostics := [.missingSchema "places" "near" .untypedRows]

/-- The function that pairs columns with values is captured by a parameter. -/
theorem zip_captured :
    Schema.parse nearSource none = .ok nearSchema ∧ build nearSchema false = .ok nearBinding ∧
      "zip".toList ∈ (WrapperCode.ofWrapper [] nearWrapper).outerNames ∧
      "zip".toList ∈ nearWrapper.params.map Argument.identifier ∧
      (WrapperCode.ofWrapper [] nearWrapper).render =
        Text.ofLines [
          "async def near(conn: AsyncConnection, zip: str) -> List[Any]:",
          "    \"\"\"Call PostgreSQL function near().\"\"\"",
          "    async with conn.cursor() as cur:",
          "        await cur.execute('SELECT * FROM near(%s)', [zip])",
          "        rows = await cur.fetchall()",
          "        colnames = [desc[0] for desc in cur.description]",
          "        return [dict(zip(colnames, row)) for row in rows]"] := by
  refine ⟨?_, by decide +kernel, by decide +kernel, by decide +kernel, ?_⟩
  · rw [show nearSource = _ from String.toList_ofList]
    decide +kernel
  · decide +kernel

end Binding

end Bindery

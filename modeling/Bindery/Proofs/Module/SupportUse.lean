import Bindery.Proofs.Basic.Lists
import Bindery.Proofs.Binding.Notices
import Bindery.Proofs.Module.EnumLabels
import Bindery.Proofs.Module.Registrations

namespace Bindery

/-- The number of wrappers in a notice about omitted support code. -/
def Diagnostic.omitted? : Diagnostic → Option Nat
  | .supportOmitted wrappers => some wrappers
  | _ => none

theorem Diagnostic.OfBuilding.omitted? {d : Diagnostic} (h : d.OfBuilding) :
    d.omitted? = none := by
  cases h with
  | reading h => cases h <;> rfl
  | naming h => cases h <;> rfl
  | missing => rfl

namespace ValueType

theorem converters_descriptor (t : ValueType) : t.descriptor.converters = t.converter?.toList := by
  induction t with
  | scalar s =>
    change ((s.converter?.map Descriptor.scalar).getD .plain).converters = s.converter?.toList
    cases s.converter? <;> rfl
  | array item ih => exact ih
  | _ => rfl

theorem enumNames_descriptor (t : ValueType) :
    t.descriptor.enumNames = (t.enumRef?.map EnumRef.sqlName).toList := by
  induction t with
  | scalar s =>
    change ((s.converter?.map Descriptor.scalar).getD .plain).enumNames = []
    cases s.converter? <;> rfl
  | array item ih => exact ih
  | _ => rfl

theorem className?_of_needsDecoding {t : ValueType} (h : t.needsDecoding = true) :
    ∃ className, t.className? = some className := by
  revert h
  unfold needsDecoding enumRef? recordClass? className?
  cases t.element with
  | enum ref => exact fun _ => ⟨ref.className, rfl⟩
  | record className => exact fun _ => ⟨className, rfl⟩
  | _ =>
    intro h
    cases h

end ValueType

theorem RegistrationCall.exists_field {r : RecordClass} {call : RegistrationCall} {d : Descriptor}
    (h : ofRecord? r = some call) (hd : d ∈ call.descriptors) :
    ∃ f ∈ r.fields, d = f.type.descriptor := by
  unfold ofRecord? at h
  dsimp only at h
  split at h
  · cases h
  · cases h
    obtain ⟨⟨key, kind⟩, hk, rfl⟩ := List.mem_map.mp hd
    obtain ⟨f, hf, he⟩ := List.mem_map.mp (List.mem_of_mem_filter hk)
    cases he
    exact ⟨f, hf, rfl⟩

theorem PassedValue.mem_calls {v : PassedValue} {name : Text} (h : name ∈ v.calls) :
    name ∈ Code.builtins ∨ ∃ identifier, v = .json identifier ∧ name = "_encode_json".toList := by
  have hb : "isinstance".toList ∈ Code.builtins := by decide
  cases v with
  | plain identifier => cases h
  | json identifier => exact .inr ⟨identifier, rfl, List.mem_singleton.mp h⟩
  | member identifier => exact .inl (List.mem_singleton.mp h ▸ hb)
  | members identifier => exact .inl (List.mem_singleton.mp h ▸ hb)

theorem ParameterCode.isJson_of_valueOf {a : Argument} {identifier : Text}
    (h : valueOf a = .json identifier) : a.type.isJson = true := by
  unfold valueOf at h
  split at h
  · assumption
  · split at h
    · split at h <;> cases h
    · cases h

theorem RegistrationCall.function_mem (call : RegistrationCall) :
    call.function ∈ SupportSection.registries.names.map String.toList := by
  have henum : "_register_enum".toList ∈ SupportSection.registries.names.map String.toList := by
    decide
  have hrecord : "_register_record".toList ∈
      SupportSection.registries.names.map String.toList := by decide
  cases call with
  | enum sqlName className => exact henum
  | record className kinds renames => exact hrecord

namespace Fetch

theorem mem_calls {f : Fetch} {name : Text} (h : name ∈ f.calls) :
    name ∈ Code.builtins ∨ (f.usesSupport = true ∧
      name ∈ SupportSection.decoding.names.map String.toList) := by
  have hrow {v : RowValue} (hv : name ∈ v.calls) : name ∈ Code.builtins ∨
      (v.usesSupport = true ∧ name ∈ SupportSection.decoding.names.map String.toList) := by
    cases v with
    | first => cases hv
    | decoded descriptor =>
      cases List.mem_singleton.mp hv
      exact .inr ⟨rfl, by decide⟩
    | record className keepEmpty =>
      cases List.mem_singleton.mp hv
      exact .inr ⟨rfl, by decide⟩
    | dictionary =>
      have hb : RowValue.dictionary.calls ⊆ Code.builtins := by decide
      exact .inl (hb hv)
  cases f with
  | nothing => cases h
  | one value => exact hrow h
  | all value => exact hrow h

theorem exists_class {w : Wrapper} (h : (ofWrapper w).usesSupport = true) :
    ∃ t ∈ w.result.types, ∃ className, t.className? = some className := by
  rcases ofWrapper_cases w with hn | ⟨value, hv, ho⟩
  · rw [hn] at h
    cases h
  · have hs : value.usesSupport = true := by
      rcases ho with ho | ho
      · rwa [ho] at h
      · rwa [ho] at h
    cases hv with
    | first => cases hs
    | dictionary => cases hs
    | decoded hr hn =>
      rw [hr]
      exact ⟨_, List.mem_singleton.mpr rfl, ValueType.className?_of_needsDecoding hn⟩
    | record hr =>
      rw [hr]
      exact ⟨_, List.mem_singleton.mpr rfl, _, rfl⟩

theorem exists_result {w : Wrapper} {d : Descriptor} (h : d ∈ (ofWrapper w).descriptors) :
    ∃ type, w.result = .value type ∧ type.needsDecoding = true ∧ d = type.descriptor := by
  rcases ofWrapper_cases w with hn | ⟨value, hv, ho⟩
  · rw [hn] at h
    cases h
  · have hd : d ∈ value.descriptors := by
      rcases ho with ho | ho
      · rwa [ho] at h
      · rwa [ho] at h
    cases hv with
    | first => cases hd
    | dictionary => cases hd
    | record => cases hd
    | decoded hr hn => exact ⟨_, hr, hn, List.mem_singleton.mp hd⟩

end Fetch

namespace Block

/-- The text of a section that defines the conversion function. -/
def conversions : Block → List Text
  | .support part =>
    if "_convert_scalar".toList ∈ Code.topLevel part.render then [part.render] else []
  | _ => []

/-- All support code that blocks use is in the blocks. -/
structure Supported (c : Catalog) (blocks : List Block) : Prop where
  /-- A function that is called is built in or defined by a section before the call. -/
  calls : ∀ front block back, blocks = front ++ block :: back →
    ∀ name ∈ Code.called block.statements, name ∈ Code.builtins ∨
      ∃ part, .support part ∈ front ∧ name ∈ Code.topLevel part.render
  /-- The kinds and the names in the text of descriptors are those of the descriptors. -/
  described : ∀ block ∈ blocks,
    Code.paired block.statements = block.descriptors.flatMap Descriptor.tags
  /-- A converter that a descriptor names has one branch in the one conversion function. -/
  converters : ∀ block ∈ blocks, ∀ name,
    (Module.quote "scalar", name) ∈ Code.paired block.statements →
    ∃ code, ∃ converter : Converter, blocks.flatMap conversions = [code] ∧
      name = Module.quote converter.name ∧
      (Code.branches code).filter (fun branch => branch.1 == name) =
        [(name, Module.indent ++ Module.indent ++ converter.statement)]
  /-- An enum that a descriptor names is registered once, with its own class. -/
  enums : ∀ block ∈ blocks, ∀ name,
    (Module.quote "enum", name) ∈ Code.paired block.statements →
    ∃ type ∈ c.enums.entries, ∃ e, .enumClass e ∈ blocks ∧ e.sqlName = normalizeKey type.name ∧
      e.members.map EnumMember.label = type.labels ∧ name = Module.quote e.sqlName ∧
      (blocks.flatMap fun block => Code.registrations block.statements).filter
        (fun entry => entry.1 == name) = [(name, e.className)]

end Block

theorem Converter.mem_all (converter : Converter) : converter ∈ Converter.all := by
  cases converter <;> decide

theorem Converter.filter_written {p : Converter → Bool} {converter : Converter}
    (h : p converter = true) :
    ((Converter.all.filter p).map written).filter
      (fun branch => branch.1 == Module.quote converter.name) = [converter.written] := by
  have hnames : (Converter.all.map Converter.name).Nodup := by decide
  have hkeys : ((Converter.all.filter p).map fun c => Module.quote c.name).Nodup := by
    rw [← Function.comp_def, ← List.map_map]
    exact (hnames.sublist (List.filter_sublist.map _)).map Module.quote_injective
  have hm := List.mem_filter.mpr ⟨converter.mem_all, h⟩
  rw [List.filter_map]
  exact congrArg (List.map written) (filter_key_eq hkeys hm)

namespace Binding

/-- What a descriptor in generated code describes: a field, or a result that is decoded. -/
inductive Described (b : Binding) : Descriptor → Prop
  | field {r : RecordClass} {f : Field} (hr : r ∈ b.records) (hf : f ∈ r.fields) :
    Described b f.type.descriptor
  | result {w : Wrapper} {type : ValueType} (hw : w ∈ b.wrappers) (hr : w.result = .value type)
    (hn : type.needsDecoding = true) : Described b type.descriptor

section Sections

variable {b : Binding} {records : List RecordClass}

theorem mem_sections_of_decoding (h : b.needsDecoding = true) :
    .registries ∈ b.supportSections ∧ .convertScalar b.converters ∈ b.supportSections ∧
      .decoding ∈ b.supportSections := by
  rw [supportSections, h, if_pos rfl]
  simp

theorem mem_sections_of_encoder (h : b.needsEncoder = true) :
    .jsonEncoder ∈ b.supportSections := by
  rw [supportSections, h, if_pos rfl]
  exact List.mem_append_right _ (List.mem_singleton.mpr rfl)

theorem needsDecoding_of_mem {className : Text} (h : className ∈ b.classNamesInUse) :
    b.needsDecoding = true := by
  rw [needsDecoding, Bool.or_eq_true, Bool.not_eq_true', Bool.not_eq_true',
    List.isEmpty_eq_false_iff, List.isEmpty_eq_false_iff]
  rcases List.mem_append.mp h with h | h
  · exact .inl (List.ne_nil_of_mem (List.mem_map.mp h).choose_spec.1)
  · exact .inr (List.ne_nil_of_mem (List.mem_map.mp h).choose_spec.1)

theorem section_mem_front {front back : List Block} {block : Block} {options : Options}
    (ho : options.omitSupport = false) (he : b.blocks options records = front ++ block :: back)
    {name : Text} (hc : name ∈ block.calls) {part : SupportSection}
    (hp : part ∈ b.supportSections) : .support part ∈ front := by
  let early := b.enumsByName.map Block.enumClass ++ records.map .recordClass ++
    b.supportSections.map .support
  have hx : block ∉ early := by
    intro hm
    rcases List.mem_append.mp hm with hm | hm
    · rcases List.mem_append.mp hm with hm | hm
      · obtain ⟨e, -, rfl⟩ := List.mem_map.mp hm
        cases hc
      · obtain ⟨r, -, rfl⟩ := List.mem_map.mp hm
        cases hc
    · obtain ⟨q, -, rfl⟩ := List.mem_map.mp hm
      cases hc
  obtain ⟨late, hl⟩ : ∃ late, b.blocks options records = early ++ late := by
    rw [blocks, ho, if_neg Bool.false_ne_true, supportBlocks]
    simp only [early, List.append_assoc]
    exact ⟨_, rfl⟩
  exact subset_of_split (hl.symm.trans he) hx (List.mem_append_right _ (List.mem_map_of_mem hp))

theorem registrations_of_mem {options : Options} {calls : List RegistrationCall}
    (h : .registrations calls ∈ b.blocks options records) :
    calls = b.registrationCalls records := by
  rcases blocks_cases h with ⟨e, -, he⟩ | ⟨r, -, he⟩ | ⟨part, he⟩ | he | ⟨c, -, he⟩ | he
  all_goals cases he
  rfl

theorem enum_of_mem {options : Options} {e : EnumClass}
    (h : .enumClass e ∈ b.blocks options records) : e ∈ b.enums := by
  rcases blocks_cases h with ⟨d, hd, he⟩ | ⟨r, -, he⟩ | ⟨part, he⟩ | he | ⟨c, -, he⟩ | he
  all_goals cases he
  exact b.enumsByName_perm.mem_iff.mp hd

theorem registrations_mem_blocks {options : Options} (ho : options.omitSupport = false)
    {call : RegistrationCall} (h : call ∈ b.registrationCalls records) :
    .registrations (b.registrationCalls records) ∈ b.blocks options records := by
  have hne : (b.registrationCalls records).isEmpty = false :=
    List.isEmpty_eq_false_iff.mpr (List.ne_nil_of_mem h)
  rw [blocks, ho, if_neg Bool.false_ne_true, supportBlocks, hne, if_neg Bool.false_ne_true]
  refine List.mem_append_left _ (List.mem_append_left _ (List.mem_append_right _ ?_))
  exact List.mem_append_right _ (List.mem_singleton.mpr rfl)

theorem flatMap_blocks {α : Type} {f : Block → List α} {options : Options}
    (ho : options.omitSupport = false) (he : ∀ e, f (.enumClass e) = [])
    (hr : ∀ r, f (.recordClass r) = []) (hw : ∀ c, f (.wrapper c) = [])
    (hm : ∀ names, f (.manifest names) = []) :
    (b.blocks options records).flatMap f =
      b.supportSections.flatMap (fun part => f (.support part)) ++
      if (b.registrationCalls records).isEmpty then []
      else f (.registrations (b.registrationCalls records)) := by
  have hnone {β : Type} (xs : List β) {block : β → Block} (h : ∀ x, f (block x) = []) :
      (xs.map block).flatMap f = [] := by
    rw [List.flatMap_map]
    exact List.flatMap_eq_nil_iff.mpr fun x _ => h x
  rw [blocks, ho, if_neg Bool.false_ne_true, supportBlocks]
  simp only [List.flatMap_append, hnone _ he, hnone _ hr, hnone _ hw, List.flatMap_singleton, hm,
    List.nil_append, List.append_nil, List.flatMap_map]
  split
  · rfl
  · rw [List.flatMap_singleton]

theorem conversions_blocks {options : Options} (ho : options.omitSupport = false)
    (hn : b.needsDecoding = true) : (b.blocks options records).flatMap Block.conversions =
      [(SupportSection.convertScalar b.converters).render] := by
  have hsection (part : SupportSection) : Block.conversions (.support part) =
      if "_convert_scalar".toList ∈ part.names.map String.toList then [part.render] else [] := by
    rw [Block.conversions, part.topLevel_render]
  have hcalls : (if (b.registrationCalls records).isEmpty then []
      else Block.conversions (.registrations (b.registrationCalls records))) = [] := by
    split <;> rfl
  have hencoder : (if b.needsEncoder then [SupportSection.jsonEncoder] else []).flatMap
      (fun part => Block.conversions (.support part)) = [] := by
    split
    · rw [List.flatMap_singleton, hsection, if_neg (by decide)]
    · rfl
  rw [flatMap_blocks ho (fun _ => rfl) (fun _ => rfl) (fun _ => rfl) fun _ => rfl, supportSections,
    hn, if_pos rfl, hcalls, List.append_nil, List.flatMap_append, hencoder, List.append_nil]
  have hconvert : "_convert_scalar".toList ∈
      (SupportSection.convertScalar b.converters).names.map String.toList :=
    List.mem_singleton.mpr rfl
  simp only [List.flatMap_cons, List.flatMap_nil, hsection]
  rw [if_neg (by decide), if_neg (by decide), if_neg (by decide), if_pos hconvert,
    if_neg (by decide)]
  rfl

theorem registered_blocks {options : Options} (ho : options.omitSupport = false) :
    (b.blocks options records).flatMap Block.registered =
      b.enumsByName.map fun e => (Module.quote e.sqlName, e.className) := by
  have hsections : b.supportSections.flatMap (fun part => Block.registered (.support part)) = [] :=
    List.flatMap_eq_nil_iff.mpr fun _ _ => rfl
  have henums : (b.enumsByName.map fun e => RegistrationCall.enum e.sqlName e.className).flatMap
      RegistrationCall.registered =
        b.enumsByName.map fun e => (Module.quote e.sqlName, e.className) := by
    rw [List.flatMap_map]
    exact List.flatMap_pure_eq_map _ _
  have hrecords : (records.filterMap RegistrationCall.ofRecord?).flatMap
      RegistrationCall.registered = [] := by
    apply List.flatMap_eq_nil_iff.mpr
    intro call hcall
    obtain ⟨r, -, hr⟩ := List.mem_filterMap.mp hcall
    unfold RegistrationCall.ofRecord? at hr
    dsimp only at hr
    split at hr
    · cases hr
    · cases hr
      rfl
  have hall : Block.registered (.registrations (b.registrationCalls records)) =
      b.enumsByName.map fun e => (Module.quote e.sqlName, e.className) := by
    rw [Block.registered, registrationCalls, List.flatMap_append, henums, hrecords,
      List.append_nil]
  rw [flatMap_blocks ho (fun _ => rfl) (fun _ => rfl) (fun _ => rfl) fun _ => rfl, hsections,
    List.nil_append, hall]
  split
  · rename_i he
    rw [registrationCalls, List.isEmpty_iff, List.append_eq_nil_iff, List.map_eq_nil_iff] at he
    rw [he.1]
    rfl
  · rfl

theorem described_of_mem {options : Options} (h : b.orderedRecords = .ok records) {block : Block}
    (hb : block ∈ b.blocks options records) {d : Descriptor} (hd : d ∈ block.descriptors) :
    b.Described d := by
  cases block with
  | registrations calls =>
    obtain ⟨call, hcall, hd⟩ := List.mem_flatMap.mp hd
    rw [registrations_of_mem hb, registrationCalls, List.mem_append] at hcall
    rcases hcall with hcall | hcall
    · obtain ⟨e, -, rfl⟩ := List.mem_map.mp hcall
      cases hd
    · obtain ⟨r, hr, hcall⟩ := List.mem_filterMap.mp hcall
      obtain ⟨f, hf, rfl⟩ := RegistrationCall.exists_field hcall hd
      exact .field ((orderedRecords_perm h).mem_iff.mp hr) hf
  | wrapper code =>
    obtain ⟨w, hw, rfl⟩ := List.mem_map.mp (wrapper_mem_blocks.mp hb)
    obtain ⟨type, hr, hn, rfl⟩ := Fetch.exists_result hd
    exact .result hw hr hn
  | _ => cases hd

theorem converter_mem {d : Descriptor} (hd : b.Described d) {converter : Converter}
    (hc : converter ∈ d.converters) : converter ∈ b.converters := by
  refine List.mem_filter.mpr ⟨converter.mem_all, List.contains_iff_mem.mpr ?_⟩
  cases hd with
  | field hr hf =>
    rw [ValueType.converters_descriptor, Option.mem_toList] at hc
    exact List.mem_append_left _
      (List.mem_flatMap.mpr ⟨_, hr, List.mem_filterMap.mpr ⟨_, hf, hc⟩⟩)
  | result hw hr hn =>
    rw [ValueType.converters_descriptor, Option.mem_toList] at hc
    refine List.mem_append_right _ (List.mem_filterMap.mpr ⟨_, hw, ?_⟩)
    rw [hr]
    dsimp only
    rw [hn, if_pos rfl]
    exact hc

end Sections

section Assembled

variable {s : Schema} {plans : List (Plan × List Diagnostic)} {records : List RecordClass}

theorem exists_enum {t : ValueType} (ht : t ∈ (assemble s plans).types) {ref : EnumRef}
    (h : t.enumRef? = some ref) : ∃ e ∈ (assemble s plans).enums, e.ref = ref := by
  rcases resolves_types ht with ⟨raw, _, rfl⟩ | ⟨r, hr, rfl⟩
  · unfold ValueType.enumRef? at h
    rcases (namesFor s (plans.map Prod.fst)).resolve_cases s.catalog raw with hn | ⟨he, _⟩
    · split at h
      · rename_i he
        cases h
        rw [he] at hn
        cases hn with
        | enum hm =>
          rw [← assemble_enums] at hm
          exact List.mem_map.mp hm
      · cases h
    · rw [he] at h
      cases h
  · cases h

theorem exists_enumType {e : EnumClass} (h : e ∈ (assemble s plans).enums) :
    ∃ type ∈ s.catalog.enums.entries, normalizeKey type.name = e.sqlName ∧
      e.members.map EnumMember.label = type.labels := by
  obtain ⟨parts⟩ := nonempty_grantParts s (plans.map Prod.fst)
  rw [enums_eq, parts.names_enums, zip_map_zip (Nat.le_of_eq parts.length_enums.symm),
    List.map_map] at h
  obtain ⟨⟨type, grant⟩, hm, rfl⟩ := List.mem_map.mp h
  exact ⟨type, (List.of_mem_zip hm).1, rfl, labels_members type _⟩

theorem nodup_enumNames (hc : s.catalog.Consistent)
    (hl : (plans.map Prod.fst).length = s.functions.length) :
    ((assemble s plans).enumsByName.map EnumClass.sqlName).Nodup := by
  rw [((assemble s plans).enumsByName_perm.map EnumClass.sqlName).nodup_iff,
    (follows_assemble hl).enums]
  exact hc.enums.nodup_keys

theorem described_type_mem {d : Descriptor} (hd : (assemble s plans).Described d) :
    ∃ t ∈ (assemble s plans).types, d = t.descriptor := by
  cases hd with
  | field hr hf => exact ⟨_, field_type_mem hr hf, rfl⟩
  | result hw hr hn =>
    refine ⟨_, wrapper_type_mem hw (List.mem_append_right _ ?_), rfl⟩
    rw [hr]
    exact List.mem_singleton.mpr rfl

theorem needsDecoding_of_type {t : ValueType} (ht : t ∈ (assemble s plans).types)
    {className : Text} (h : t.className? = some className) :
    (assemble s plans).needsDecoding = true :=
  needsDecoding_of_mem (mem_classNamesInUse ht h)

theorem needsDecoding_of_described {d : Descriptor} (hd : (assemble s plans).Described d) :
    (assemble s plans).needsDecoding = true := by
  cases hd with
  | field hr hf =>
    exact needsDecoding_of_mem (List.mem_append_right _ (List.mem_map_of_mem hr))
  | result hw hr hn =>
    obtain ⟨className, hc⟩ := ValueType.className?_of_needsDecoding hn
    refine needsDecoding_of_type (wrapper_type_mem hw (List.mem_append_right _ ?_)) hc
    rw [hr]
    exact List.mem_singleton.mpr rfl

theorem registered_once (hc : s.catalog.Consistent)
    (hl : (plans.map Prod.fst).length = s.functions.length) {options : Options}
    (ho : options.omitSupport = false) {t : ValueType} (ht : t ∈ (assemble s plans).types)
    {sqlName : Text} (hn : sqlName ∈ t.descriptor.enumNames) :
    ∃ type ∈ s.catalog.enums.entries, ∃ e,
      .enumClass e ∈ (assemble s plans).blocks options records ∧
      e.sqlName = normalizeKey type.name ∧ e.members.map EnumMember.label = type.labels ∧
      e.sqlName = sqlName ∧
      (((assemble s plans).blocks options records).flatMap Block.registered).filter
        (fun entry => entry.1 == Module.quote sqlName) =
          [(Module.quote sqlName, e.className)] := by
  rw [ValueType.enumNames_descriptor, Option.mem_toList, Option.map_eq_some_iff] at hn
  obtain ⟨ref, href, rfl⟩ := hn
  obtain ⟨e, he, rfl⟩ := exists_enum ht href
  obtain ⟨type, htype, hkey, hlabels⟩ := exists_enumType he
  have hm := (assemble s plans).enumsByName_perm.mem_iff.mpr he
  refine ⟨type, htype, e, ?_, hkey.symm, hlabels, rfl, ?_⟩
  · rw [blocks_eq]
    exact List.mem_append_left _ (List.mem_map_of_mem hm)
  · have hkeys : ((assemble s plans).enumsByName.map fun e => Module.quote e.sqlName).Nodup := by
      rw [← Function.comp_def, ← List.map_map]
      exact (nodup_enumNames hc hl).map Module.quote_injective
    rw [registered_blocks ho, List.filter_map]
    exact congrArg (List.map fun e : EnumClass => (Module.quote e.sqlName, e.className))
      (filter_key_eq hkeys hm)

theorem needsDecoding_of_fetch {w : Wrapper} (hw : w ∈ (assemble s plans).wrappers)
    (h : (Fetch.ofWrapper w).usesSupport = true) : (assemble s plans).needsDecoding = true := by
  obtain ⟨t, ht, className, hc⟩ := Fetch.exists_class h
  exact needsDecoding_of_type (wrapper_type_mem hw (List.mem_append_right _ ht)) hc

theorem wrapper_calls {w : Wrapper} (hw : w ∈ (assemble s plans).wrappers) {name : Text}
    (h : name ∈ (WrapperCode.ofWrapper (assemble s plans).enums w).calls) :
    name ∈ Code.builtins ∨ ∃ part ∈ (assemble s plans).supportSections,
      name ∈ part.names.map String.toList := by
  rcases List.mem_append.mp h with h | h
  · obtain ⟨p, hp, h⟩ := List.mem_flatMap.mp h
    obtain ⟨a, ha, rfl⟩ := List.mem_map.mp hp
    rcases PassedValue.mem_calls h with hb | ⟨identifier, hv, rfl⟩
    · exact .inl hb
    · have hj : a.type.isJson = true := ParameterCode.isJson_of_valueOf hv
      have hn : (assemble s plans).needsEncoder = true :=
        List.any_eq_true.mpr ⟨w, hw, List.any_eq_true.mpr ⟨a, ha, hj⟩⟩
      exact .inr ⟨_, mem_sections_of_encoder hn, by decide⟩
  · rcases Fetch.mem_calls h with hb | ⟨hs, hn⟩
    · exact .inl hb
    · obtain ⟨-, -, hd⟩ := mem_sections_of_decoding (needsDecoding_of_fetch hw hs)
      exact .inr ⟨_, hd, hn⟩

theorem registration_calls (h : (assemble s plans).orderedRecords = .ok records)
    {call : RegistrationCall} (hc : call ∈ (assemble s plans).registrationCalls records) :
    ∃ part ∈ (assemble s plans).supportSections, call.function ∈ part.names.map String.toList := by
  have hn : (assemble s plans).needsDecoding = true := by
    rcases List.mem_append.mp hc with hc | hc
    · obtain ⟨e, he, rfl⟩ := List.mem_map.mp hc
      have hm := (enumsByName_perm _).mem_iff.mp he
      exact needsDecoding_of_mem (List.mem_append_left _ (List.mem_map_of_mem hm))
    · obtain ⟨r, hr, -⟩ := List.mem_filterMap.mp hc
      have hm := (orderedRecords_perm h).mem_iff.mp hr
      exact needsDecoding_of_mem (List.mem_append_right _ (List.mem_map_of_mem hm))
  exact ⟨_, (mem_sections_of_decoding hn).1, call.function_mem⟩

theorem block_calls (h : (assemble s plans).orderedRecords = .ok records) {options : Options}
    {block : Block} (hb : block ∈ (assemble s plans).blocks options records) {name : Text}
    (hn : name ∈ block.calls) :
    name ∈ Code.builtins ∨ ∃ part ∈ (assemble s plans).supportSections,
      name ∈ part.names.map String.toList := by
  cases block with
  | wrapper code =>
    obtain ⟨w, hw, rfl⟩ := List.mem_map.mp (wrapper_mem_blocks.mp hb)
    exact wrapper_calls hw hn
  | registrations calls =>
    obtain ⟨call, hcall, rfl⟩ := List.mem_map.mp hn
    rw [registrations_of_mem hb] at hcall
    exact .inr (registration_calls h hcall)
  | _ => cases hn

theorem supported_blocks (hc : s.catalog.Consistent)
    (hl : (plans.map Prod.fst).length = s.functions.length)
    (h : (assemble s plans).orderedRecords = .ok records) {options : Options}
    (ho : options.omitSupport = false) :
    Block.Supported s.catalog ((assemble s plans).blocks options records) where
  calls := by
    intro front block back he name hn
    have hb : block ∈ (assemble s plans).blocks options records := by
      rw [he]
      exact List.mem_append_right _ List.mem_cons_self
    obtain ⟨mentions, hr, hcalls⟩ := reads_statements h options hb
    rw [hr.called_eq, hcalls] at hn
    rcases block_calls h hb hn with hbuiltin | ⟨part, hp, hname⟩
    · exact .inl hbuiltin
    · refine .inr ⟨part, section_mem_front ho he hn hp, ?_⟩
      rwa [part.topLevel_render]
  described := fun block hb => (hasPairs_statements h hb).1.paired_eq.2
  converters := by
    intro block hb name hname
    rw [(hasPairs_statements h hb).1.paired_eq.2] at hname
    obtain ⟨d, hd, htag⟩ := List.mem_flatMap.mp hname
    obtain ⟨converter, hconverter, rfl⟩ := Descriptor.exists_converter htag
    have hdescribed := described_of_mem h hb hd
    have hmem := converter_mem hdescribed hconverter
    refine ⟨_, converter, conversions_blocks ho (needsDecoding_of_described hdescribed), rfl, ?_⟩
    rw [SupportSection.branches_convertScalar]
    exact Converter.filter_written (List.mem_filter.mp hmem).2
  enums := by
    intro block hb name hname
    rw [(hasPairs_statements h hb).1.paired_eq.2] at hname
    obtain ⟨d, hd, htag⟩ := List.mem_flatMap.mp hname
    obtain ⟨sqlName, hn, rfl⟩ := Descriptor.exists_enumName htag
    obtain ⟨t, ht, rfl⟩ := described_type_mem (described_of_mem h hb hd)
    obtain ⟨type, htype, e, he, hkey, hlabels, rfl, hone⟩ := registered_once hc hl ho ht hn
    refine ⟨type, htype, e, he, hkey, hlabels, rfl, ?_⟩
    rwa [List.flatMap_congr fun block hb => (hasPairs_statements h hb).2]

end Assembled

theorem omitted_omissionNotices (b : Binding) (options : Options) :
    (b.omissionNotices options).filterMap Diagnostic.omitted? =
      if options.omitSupport ∧ b.supportUsers ≠ 0 then [b.supportUsers] else [] := by
  have hc : (options.omitSupport && decide (b.supportUsers > 0)) = true ↔
      options.omitSupport = true ∧ b.supportUsers ≠ 0 := by
    rw [Bool.and_eq_true, decide_eq_true_iff, gt_iff_lt, Nat.pos_iff_ne_zero]
  rw [omissionNotices]
  by_cases h : options.omitSupport = true ∧ b.supportUsers ≠ 0
  · rw [if_pos h, if_pos (hc.mpr h)]
    rfl
  · rw [if_neg h, if_neg (mt hc.mp h)]
    rfl

end Binding

theorem Block.infix_render_statements (block : Block) :
    block.statements <:+: block.render := by
  cases block with
  | wrapper c =>
    change c.body <:+: c.render
    rw [c.render_eq]
    exact (List.suffix_append _ _).isInfix
  | registrations calls => exact List.infix_rfl
  | _ => exact List.nil_infix

def Module.supportCallers (m : Module) : Nat :=
  (m.blocks.filter Block.callsSupport).length

/--
Support code that is used is emitted. In every generated module the statements of wrappers and
registrations can be read. With support code, what they call is built in or defined before, and the
converters and enums that descriptors name are provided for; without it, the wrappers that call it
are counted in one notice, if there are any.
-/
theorem generate_supported {functions : Text} {shared : Option Text} {options : Options}
    {g : Generated} (h : generate functions shared options = .ok g) :
    (∀ block ∈ g.source.blocks, block.statements <:+: block.render ∧
      Module.trimNewlines block.render <:+: g.code ∧ (Code.read? block.statements).isSome ∧
      (Code.atoms? block.statements).isSome) ∧
    (options.omitSupport = false → ∃ s, Schema.parse functions shared = .ok s ∧
      Block.Supported s.catalog g.source.blocks) ∧
    g.diagnostics.filterMap Diagnostic.omitted? =
      if options.omitSupport ∧ g.source.supportCallers ≠ 0 then [g.source.supportCallers]
      else [] := by
  obtain ⟨s, b, hs, hb, hg⟩ := generate_eq_ok h
  have hnotices := Binding.ofBuilding_of_build hs hb
  obtain ⟨plans, hp, rfl⟩ := Binding.exists_plans hb
  have hl := Binding.length_plans hp
  obtain ⟨-, records, hr, rfl⟩ := Binding.exists_generated hg
  refine ⟨?_, ?_, ?_⟩
  · intro block hblock
    obtain ⟨mentions, hreads, -⟩ := Binding.reads_statements hr options hblock
    have hread : Code.read? block.statements = some mentions := hreads
    refine ⟨block.infix_render_statements, Module.block_infix_render hblock, ?_,
      (Binding.hasPairs_statements hr hblock).1.paired_eq.1⟩
    rw [hread]
    rfl
  · intro ho
    exact ⟨s, hs, Binding.supported_blocks (Schema.consistent_of_parse hs) hl hr ho⟩
  · have hcallers := Binding.length_callsSupport hr options
    have hbuilt : (Binding.assemble s plans).diagnostics.filterMap Diagnostic.omitted? = [] :=
      List.filterMap_eq_nil_iff.mpr fun d hd => (hnotices d hd).omitted?
    rw [List.filterMap_append, hbuilt, List.nil_append, Module.supportCallers, hcallers]
    exact Binding.omitted_omissionNotices _ options

/-- A record with arrays of dates and of enums, and a function with an argument to encode. -/
def noteSource : Text :=
  "CREATE TYPE mood AS ENUM ('ok');\nCREATE TYPE entry AS (days date[], moods mood[]);
CREATE FUNCTION note(body jsonb) RETURNS SETOF entry"

def noteSchema : Schema where
  catalog := {
    composites := ⟨[⟨"entry", [⟨"days", "date[]", true, none⟩, ⟨"moods", "mood[]", true, none⟩]⟩],
      [("entry", 0)]⟩
    enums := ⟨[⟨"mood", ["ok".toList]⟩], [("mood", 0)]⟩ }
  functions := [⟨"note", "note", none, [⟨some "body".toList, .input, "jsonb", none⟩],
    ⟨.composite "entry", true⟩, ⟨3, 1⟩⟩]

def entryClass : RecordClass :=
  ⟨"Entry", "entry", .composite,
    [⟨"days", "days", "date[]", .array (.scalar .date), true, false⟩,
      ⟨"moods", "moods", "mood[]", .array (.enum ⟨"mood", "Mood"⟩), true, false⟩]⟩

def noteBinding : Binding where
  enums := [⟨"mood", "Mood", [⟨"OK", "ok"⟩]⟩]
  records := [entryClass]
  wrappers := [⟨"note", "note", "note", none,
    [⟨some "body".toList, "body", "jsonb", .scalar .json, false, false, none, false⟩],
    ⟨.composite "entry", true⟩, .record "Entry"⟩]

def entryCall : RegistrationCall :=
  .record "Entry" [("days", .list (.scalar .date)), ("moods", .list (.enum "mood"))] []

theorem generate_supported_of_notes :
    (∃ g code, generate noteSource none {} = .ok g ∧
      g.source.blocks.flatMap Block.conversions = [code] ∧
      (Code.branches code).filter (fun branch => branch.1 == "'date'".toList) =
        [("'date'".toList, "        return date.fromisoformat(value)".toList)] ∧
      (g.source.blocks.flatMap fun block => Code.registrations block.statements).filter
        (fun entry => entry.1 == "'mood'".toList) = [("'mood'".toList, "Mood".toList)]) ∧
    ∃ g, generate noteSource none { omitSupport := true } = .ok g ∧
      g.diagnostics = [.supportOmitted 1] ∧ g.source.supportCallers = 1 := by
  have hs : Schema.parse noteSource none = .ok noteSchema := by
    set_option maxRecDepth 1000 in
    rw [show noteSource = _ from String.toList_ofList]
    decide +kernel
  have hb (omitSupport : Bool) : Binding.build noteSchema (Options.strict { omitSupport }) =
      .ok noteBinding := by
    change Binding.build noteSchema true = _
    decide +kernel
  have hc : noteBinding.checkShadowing = .ok () := by decide
  have hr : noteBinding.orderedRecords = .ok [entryClass] := by cbv
  constructor
  · have hg := (generate_of_build hs (hb false)).trans (Binding.generate_of_ordered hc hr {})
    have hentry : RegistrationCall.ofRecord? entryClass = some entryCall := by decide
    have hcall : entryCall ∈ noteBinding.registrationCalls [entryClass] :=
      List.mem_append_right _ (List.mem_filterMap.mpr ⟨entryClass, List.mem_cons_self, hentry⟩)
    have hblock : .registrations (noteBinding.registrationCalls [entryClass]) ∈
        noteBinding.blocks {} [entryClass] := Binding.registrations_mem_blocks rfl hcall
    obtain ⟨s, -, hsupported⟩ := (generate_supported hg).2.1 rfl
    have htag {tag : Text × Text} (h : tag ∈ entryCall.descriptors.flatMap Descriptor.tags) :
        tag ∈ Code.paired (Block.registrations
          (noteBinding.registrationCalls [entryClass])).statements := by
      rw [hsupported.described _ hblock]
      obtain ⟨d, hd, ht⟩ := List.mem_flatMap.mp h
      exact List.mem_flatMap.mpr ⟨d, List.mem_flatMap.mpr ⟨entryCall, hcall, hd⟩, ht⟩
    obtain ⟨code, converter, hcode, hname, hbranch⟩ := hsupported.converters _ hblock
      "'date'".toList (htag (by decide))
    obtain ⟨type, -, e, he, -, -, -, hone⟩ := hsupported.enums _ hblock
      "'mood'".toList (htag (by decide))
    have hdate : converter = .date := by
      revert hname
      cases converter <;> decide
    have hmood : e.className = "Mood".toList := by
      rw [List.mem_singleton.mp (Binding.enum_of_mem he)]
    refine ⟨_, code, hg, hcode, ?_, ?_⟩
    · rw [hbranch, hdate]
      rfl
    · rw [hone, hmood]
  · have hg := (generate_of_build hs (hb true)).trans
      (Binding.generate_of_ordered hc hr { omitSupport := true })
    have hd : noteBinding.diagnostics ++ noteBinding.omissionNotices { omitSupport := true } =
        [.supportOmitted 1] := by decide
    refine ⟨_, hg, hd, ?_⟩
    have hn := (generate_supported hg).2.2
    rw [hd] at hn
    split at hn
    · exact (List.singleton_inj.mp hn).symm
    · cases hn

end Bindery

import Bindery.Module.Generate
import Bindery.Proofs.Binding.References

namespace Bindery

/-- The class behind all array dimensions, of an enum or a record. -/
def ValueType.className? (t : ValueType) : Option Text :=
  match t.element with
  | .enum ref => some ref.className
  | .record className => some className
  | _ => none

def Hint.classNames : Hint → List Text
  | .named className => [className]
  | .list item | .optional item => item.classNames
  | .none | .any | .scalar _ => []

def Descriptor.classNames : Descriptor → List Text
  | .record className => [className]
  | .list item => item.classNames
  | .plain | .scalar _ | .enum _ => []

def Literal.classNames : Literal → List Text
  | .member className _ => [className]
  | _ => []

def Default.classNames : Default → List Text
  | .literal value => value.classNames
  | .null | .sql _ => []

def ParameterCode.classNames (p : ParameterCode) : List Text :=
  p.hint.classNames ++ p.default.toList.flatMap Default.classNames

def RowValue.classNames : RowValue → List Text
  | .decoded descriptor => descriptor.classNames
  | .record className _ => [className]
  | .first | .dictionary => []

def Fetch.classNames : Fetch → List Text
  | .one value | .all value => value.classNames
  | .nothing => []

def WrapperCode.classNames (c : WrapperCode) : List Text :=
  c.params.flatMap ParameterCode.classNames ++ c.result.classNames ++ c.fetch.classNames

def RegistrationCall.classNames : RegistrationCall → List Text
  | .enum _ className => [className]
  | .record className kinds _ => className :: kinds.flatMap fun (_, kind) => kind.classNames

namespace Block

def defines? : Block → Option Text
  | .enumClass enum => some enum.className
  | .recordClass record => some record.className
  | .support _ | .registrations _ | .wrapper _ | .manifest _ => none

/-- The classes that a block needs when it is executed. -/
def uses : Block → List Text
  | .recordClass record => record.fields.flatMap fun f => f.hint.classNames
  | .registrations calls => calls.flatMap RegistrationCall.classNames
  | .wrapper code => code.classNames
  | .enumClass _ | .support _ | .manifest _ => []

end Block

namespace ValueType

theorem classNames_hint (t : ValueType) : t.hint.classNames = t.className?.toList := by
  induction t with
  | array item ih => exact ih
  | _ => rfl

theorem classNames_hintFor (t : ValueType) (isOptional : Bool) :
    (t.hintFor isOptional).classNames = t.className?.toList := by
  unfold hintFor
  split <;> exact t.classNames_hint

theorem className?_of_recordClass? {t : ValueType} {className : Text}
    (h : t.recordClass? = some className) : t.className? = some className := by
  unfold recordClass? at h
  unfold className?
  split at h
  · rename_i he
    rw [he]
    exact h
  · cases h

theorem classNames_descriptor (t : ValueType) :
    t.descriptor.classNames = t.recordClass?.toList := by
  induction t with
  | scalar s =>
    change ((s.converter?.map Descriptor.scalar).getD .plain).classNames = []
    cases s.converter? <;> rfl
  | array item ih => exact ih
  | _ => rfl

theorem className?_of_descriptor {t : ValueType} {className : Text}
    (h : className ∈ t.descriptor.classNames) : t.className? = some className := by
  rw [classNames_descriptor, Option.mem_toList] at h
  exact className?_of_recordClass? h

end ValueType

theorem Head.classNames_literal? {enums : List EnumClass} {type : ValueType} {head : Head}
    {literal : Literal} {className : Text} (h : head.literal? enums type = some literal)
    (hc : className ∈ literal.classNames) : className ∈ enums.map EnumClass.className := by
  cases literal with
  | member name member =>
    cases List.mem_singleton.mp hc
    unfold Head.literal? at h
    split at h
    case h_8 =>
      obtain ⟨enum, he, h⟩ := Option.bind_eq_some_iff.mp h
      obtain ⟨_, _, h⟩ := Option.bind_eq_some_iff.mp h
      cases h
      have hn := List.find?_some he
      exact List.mem_map.mpr ⟨enum, List.mem_of_find?_eq_some he, by simpa using hn⟩
    case h_2 =>
      obtain ⟨numeral, _, h⟩ := Option.bind_eq_some_iff.mp h
      unfold float? at h
      split at h <;> simp at h
    all_goals simp [Option.bind_eq_some_iff] at h
  | _ => cases hc

theorem Default.classNames_ofArgument? {enums : List EnumClass} {a : Argument} {default : Default}
    {className : Text} (h : ofArgument? enums a = some default)
    (hc : className ∈ default.classNames) : className ∈ enums.map EnumClass.className := by
  obtain ⟨value, _, rfl⟩ := Option.map_eq_some_iff.mp h
  dsimp only at hc
  split at hc
  · cases hc
  · split at hc
    · rename_i literal hl
      obtain ⟨head, _, hl⟩ := Option.bind_eq_some_iff.mp hl
      exact Head.classNames_literal? hl hc
    · cases hc

/-- What is made of the rows of a wrapper, by the shape of its result. -/
inductive RowValue.Fetches (w : Wrapper) : RowValue → Prop
  | first : Fetches w .first
  | decoded {type : ValueType} (hr : w.result = .value type) (hn : type.needsDecoding = true) :
    Fetches w (.decoded type.descriptor)
  | record {className : Text} {keepEmpty : Bool} (hr : w.result = .record className) :
    Fetches w (.record className keepEmpty)
  | dictionary : Fetches w .dictionary

theorem Fetch.ofWrapper_cases (w : Wrapper) : ofWrapper w = .nothing ∨
    ∃ value, RowValue.Fetches w value ∧ (ofWrapper w = .one value ∨ ofWrapper w = .all value) := by
  have hshape {value : RowValue} (hv : RowValue.Fetches w value)
      (he : ofWrapper w = if w.isSet then .all value else .one value) :
      ∃ value, RowValue.Fetches w value ∧
        (ofWrapper w = .one value ∨ ofWrapper w = .all value) := by
    refine ⟨value, hv, ?_⟩
    cases hs : w.isSet with
    | true => exact .inr (by rw [he, hs, if_pos rfl])
    | false => exact .inl (by rw [he, hs, if_neg Bool.false_ne_true])
  cases hr : w.result with
  | void => exact .inl (by rw [ofWrapper, hr])
  | rows => exact .inr (hshape .dictionary (by rw [ofWrapper, hr]))
  | record className => exact .inr (hshape (.record hr) (by rw [ofWrapper, hr]))
  | value type =>
    cases hn : type.needsDecoding with
    | true => exact .inr (hshape (.decoded hr hn) (by simp [ofWrapper, hr, hn]))
    | false => exact .inr (hshape .first (by simp [ofWrapper, hr, hn]))

def Wrapper.types (w : Wrapper) : List ValueType :=
  w.params.map Argument.type ++ w.result.types

namespace WrapperCode

theorem classNames_resultHint {w : Wrapper} {className : Text}
    (h : className ∈ (resultHint w).classNames) :
    ∃ t ∈ w.result.types, t.className? = some className := by
  unfold resultHint at h
  cases hr : w.result with
  | void =>
    rw [hr] at h
    cases h
  | rows =>
    rw [hr] at h
    dsimp only at h
    split at h <;> cases h
  | value type =>
    rw [hr] at h
    have hc : className ∈ type.hint.classNames := by
      dsimp only at h
      split at h
      · exact h
      · split at h <;> exact h
    rw [ValueType.classNames_hint, Option.mem_toList] at hc
    exact ⟨type, List.mem_singleton.mpr rfl, hc⟩
  | record name =>
    rw [hr] at h
    have hc : className ∈ [name] := by
      dsimp only at h
      split at h <;> exact h
    cases List.mem_singleton.mp hc
    exact ⟨.record className, List.mem_singleton.mpr rfl, rfl⟩

theorem classNames_fetch {w : Wrapper} {className : Text}
    (h : className ∈ (Fetch.ofWrapper w).classNames) :
    ∃ t ∈ w.result.types, t.className? = some className := by
  rcases Fetch.ofWrapper_cases w with hn | ⟨value, hv, ho⟩
  · rw [hn] at h
    cases h
  · have hc : className ∈ value.classNames := by
      rcases ho with ho | ho
      · rwa [ho] at h
      · rwa [ho] at h
    cases hv with
    | first => cases hc
    | dictionary => cases hc
    | decoded hr =>
      rw [hr]
      exact ⟨_, List.mem_singleton.mpr rfl, ValueType.className?_of_descriptor hc⟩
    | record hr =>
      rw [hr]
      cases List.mem_singleton.mp hc
      exact ⟨_, List.mem_singleton.mpr rfl, rfl⟩

theorem classNames_ofWrapper {enums : List EnumClass} {w : Wrapper} {className : Text}
    (h : className ∈ (ofWrapper enums w).classNames) :
    (∃ t ∈ w.types, t.className? = some className) ∨
      className ∈ enums.map EnumClass.className := by
  have hres (hr : ∃ t ∈ w.result.types, t.className? = some className) :
      ∃ t ∈ w.types, t.className? = some className := by
    obtain ⟨t, ht, hc⟩ := hr
    exact ⟨t, List.mem_append_right _ ht, hc⟩
  rw [classNames, List.mem_append, List.mem_append] at h
  rcases h with (h | h) | h
  · obtain ⟨p, hp, hc⟩ := List.mem_flatMap.mp h
    obtain ⟨a, ha, rfl⟩ := List.mem_map.mp hp
    rcases List.mem_append.mp hc with hc | hc
    · rw [ParameterCode.ofArgument, ValueType.classNames_hintFor, Option.mem_toList] at hc
      exact .inl ⟨a.type, List.mem_append_left _ (List.mem_map_of_mem ha), hc⟩
    · obtain ⟨default, hd, hc⟩ := List.mem_flatMap.mp hc
      rw [Option.mem_toList] at hd
      exact .inr (Default.classNames_ofArgument? hd hc)
  · exact .inl (hres (classNames_resultHint h))
  · exact .inl (hres (classNames_fetch h))

end WrapperCode

theorem RegistrationCall.classNames_ofRecord? {r : RecordClass} {call : RegistrationCall}
    {className : Text} (h : ofRecord? r = some call) (hc : className ∈ call.classNames) :
    className = r.className ∨ ∃ f ∈ r.fields, f.type.className? = some className := by
  unfold ofRecord? at h
  dsimp only at h
  split at h
  · cases h
  · cases h
    rcases List.mem_cons.mp hc with hc | hc
    · exact .inl hc
    · obtain ⟨⟨key, kind⟩, hk, hc⟩ := List.mem_flatMap.mp hc
      obtain ⟨f, hf, he⟩ := List.mem_map.mp (List.mem_of_mem_filter hk)
      cases he
      exact .inr ⟨f, hf, ValueType.className?_of_descriptor hc⟩

namespace Binding

theorem field_type_mem {b : Binding} {r : RecordClass} {f : Field} (hr : r ∈ b.records)
    (hf : f ∈ r.fields) : f.type ∈ b.types :=
  List.mem_append_left _ (List.mem_flatMap.mpr ⟨r, hr, List.mem_map_of_mem hf⟩)

theorem wrapper_type_mem {b : Binding} {w : Wrapper} {t : ValueType} (hw : w ∈ b.wrappers)
    (ht : t ∈ w.types) : t ∈ b.types :=
  List.mem_append_right _ (List.mem_flatMap.mpr ⟨w, hw, ht⟩)

theorem className_mem {s : Schema} {plans : List (Plan × List Diagnostic)} {t : ValueType}
    (ht : t ∈ (assemble s plans).types) {className : Text} (hc : t.className? = some className) :
    className ∈ (assemble s plans).enums.map EnumClass.className ∨
      (t.recordClass? = some className ∧
        className ∈ (assemble s plans).records.map RecordClass.className) := by
  rcases resolves_types ht with ⟨raw, _, rfl⟩ | ⟨r, hr, rfl⟩
  · unfold ValueType.className? at hc
    unfold ValueType.recordClass?
    rcases (namesFor s (plans.map Prod.fst)).resolve_cases s.catalog raw with hn | ⟨he, _⟩
    · revert hn hc
      cases ((namesFor s (plans.map Prod.fst)).resolve s.catalog raw).element with
      | enum ref =>
        intro hc hn
        cases hc
        cases hn with
        | enum hm =>
          rw [← assemble_enums] at hm
          obtain ⟨e, he, rfl⟩ := List.mem_map.mp hm
          exact .inl (List.mem_map_of_mem he)
      | record name =>
        intro hc hn
        cases hc
        exact .inr ⟨rfl, mem_records_of_names hn⟩
      | _ =>
        intro hc
        cases hc
    · rw [he] at hc
      cases hc
  · cases hc
    exact .inr ⟨rfl, List.mem_map_of_mem hr⟩

theorem mem_classNamesInUse {s : Schema} {plans : List (Plan × List Diagnostic)} {t : ValueType}
    (ht : t ∈ (assemble s plans).types) {className : Text} (hc : t.className? = some className) :
    className ∈ (assemble s plans).classNamesInUse := by
  rcases className_mem ht hc with h | ⟨_, h⟩
  · exact List.mem_append_left _ h
  · exact List.mem_append_right _ h

end Binding

end Bindery

import Bindery.Proofs.Code.Atoms
import Bindery.Proofs.Module.Calls
import Bindery.Proofs.Module.Sections
import Bindery.Proofs.Text.Lines

namespace Bindery

open Code (HasPairs IsBare StartsBare)

namespace Descriptor

def converters : Descriptor → List Converter
  | .scalar converter => [converter]
  | .list item => item.converters
  | .plain | .enum _ | .record _ => []

def enumNames : Descriptor → List Text
  | .enum sqlName => [sqlName]
  | .list item => item.enumNames
  | .plain | .scalar _ | .record _ => []

/-- The names in a descriptor as they are written, each with its kind. -/
def tags : Descriptor → List (Text × Text)
  | .scalar converter => [(Module.quote "scalar", Module.quote converter.name)]
  | .enum sqlName => [(Module.quote "enum", Module.quote sqlName)]
  | .list item => item.tags
  | .plain | .record _ => []

theorem exists_converter {d : Descriptor} {name : Text}
    (h : (Module.quote "scalar", name) ∈ d.tags) :
    ∃ converter ∈ d.converters, name = Module.quote converter.name := by
  induction d with
  | scalar converter =>
    exact ⟨converter, List.mem_cons_self, (Prod.mk.inj (List.mem_singleton.mp h)).2⟩
  | enum sqlName =>
    exact absurd (Prod.mk.inj (List.mem_singleton.mp h)).1 (by decide)
  | list item ih => exact ih h
  | plain => cases h
  | record className => cases h

theorem exists_enumName {d : Descriptor} {name : Text}
    (h : (Module.quote "enum", name) ∈ d.tags) :
    ∃ sqlName ∈ d.enumNames, name = Module.quote sqlName := by
  induction d with
  | scalar converter =>
    exact absurd (Prod.mk.inj (List.mem_singleton.mp h)).1 (by decide)
  | enum sqlName =>
    exact ⟨sqlName, List.mem_cons_self, (Prod.mk.inj (List.mem_singleton.mp h)).2⟩
  | list item ih => exact ih h
  | plain => cases h
  | record className => cases h

theorem startsBare_render (d : Descriptor) : StartsBare d.render := by
  cases d with
  | plain => exact ⟨'N', _, rfl, by decide⟩
  | _ => exact ⟨'(', _, rfl, by decide⟩

theorem hasPairs_render {d : Descriptor} (hp : ∀ c ∈ d.classNames, Name.IsProper c) :
    HasPairs d.render d.tags := by
  have hclose : HasPairs ")".toList [] := Code.hasPairs_bare (by decide) (by decide)
  induction d with
  | plain => exact Code.hasPairs_bare (by decide) (by decide)
  | scalar converter =>
    have hopen : "('scalar', ".toList = ['('] ++ (Module.quote "scalar" ++ [',', ' ']) := by decide
    have hr := (Code.hasPairs_pair "scalar" converter.name).append hclose
    unfold render tags
    rw [hopen]
    simpa only [List.append_assoc, List.append_nil] using hr
  | enum sqlName =>
    have hopen : "('enum', ".toList = ['('] ++ (Module.quote "enum" ++ [',', ' ']) := by decide
    have hr := (Code.hasPairs_pair "enum" sqlName).append hclose
    unfold render tags
    rw [hopen]
    simpa only [List.append_assoc, List.append_nil] using hr
  | record className =>
    have hopen : "('record', ".toList = ['('] ++ (Module.quote "record" ++ [',', ' ']) := by decide
    have hname := hp className List.mem_cons_self
    have hbody : HasPairs (className ++ ")".toList) [] :=
      Code.hasPairs_ending (Code.isBare_of_isPlain hname.plain) (by decide) (by decide) (by decide)
    have hr := hbody.second ((Code.startsBare_of_isProper hname).append _) "record"
    unfold render tags
    rw [hopen]
    simpa only [List.append_assoc] using hr
  | list item ih =>
    have hopen : "('list', ".toList = ['('] ++ (Module.quote "list" ++ [',', ' ']) := by decide
    have hr := ((ih hp).append hclose).second (item.startsBare_render.append _) "list"
    rw [List.append_nil] at hr
    unfold render tags
    rw [hopen]
    simpa only [List.append_assoc] using hr

theorem newline_not_mem_render {d : Descriptor} (hp : ∀ c ∈ d.classNames, Name.IsProper c) :
    '\n' ∉ d.render := by
  have hclose : '\n' ∉ ")".toList := by decide
  have hkind (kind : Text) (body : Text) (hk : '\n' ∉ kind) (hb : '\n' ∉ body) :
      '\n' ∉ kind ++ body ++ ")".toList := by
    simp only [List.mem_append, hk, hb, hclose, or_self, not_false_eq_true]
  induction d with
  | plain => decide
  | scalar converter => exact hkind _ _ (by decide) (Module.newline_not_mem_quote _)
  | enum sqlName => exact hkind _ _ (by decide) (Module.newline_not_mem_quote _)
  | record className =>
    exact hkind _ _ (by decide) (hp className List.mem_cons_self).plain.no_newline
  | list item ih => exact hkind _ _ (by decide) (ih hp)

end Descriptor

def RegistrationCall.descriptors : RegistrationCall → List Descriptor
  | .enum _ _ => []
  | .record _ kinds _ => kinds.map Prod.snd

def RowValue.descriptors : RowValue → List Descriptor
  | .decoded descriptor => [descriptor]
  | .first | .record _ _ | .dictionary => []

def Fetch.descriptors : Fetch → List Descriptor
  | .one value | .all value => value.descriptors
  | .nothing => []

def Block.descriptors : Block → List Descriptor
  | .registrations calls => calls.flatMap RegistrationCall.descriptors
  | .wrapper c => c.fetch.descriptors
  | _ => []

namespace RegistrationCall

theorem hasPairs_entry {value : Text} {ps : List (Text × Text)} (h : HasPairs value ps)
    (key : Text) : HasPairs (entry key value) ps := by
  have hcolon : HasPairs ": ".toList [] := Code.hasPairs_bare (by decide) (by decide)
  exact ((Code.hasPairs_quote key).append hcolon).append h

theorem hasPairs_dictionary {α : Type} {xs : List α} {f : α → Text} {g : α → List (Text × Text)}
    (h : ∀ x ∈ xs, HasPairs (f x) (g x)) : HasPairs (dictionary (xs.map f)) (xs.flatMap g) := by
  have hopen : HasPairs "\x7b".toList [] := Code.hasPairs_bare (by decide) (by decide)
  have hclose : HasPairs "\x7d".toList [] := Code.hasPairs_bare (by decide) (by decide)
  have hr := (hopen.append (Code.hasPairs_join h)).append hclose
  rwa [List.nil_append, List.append_nil] at hr

theorem hasPairs_renames (renames : List (Text × Text)) :
    HasPairs (if renames.isEmpty then [] else ", " ++ dictionary
      (renames.map fun (key, name) => entry key (Module.quote name))) [] := by
  have hcomma : HasPairs ", ".toList [] := Code.hasPairs_bare (by decide) (by decide)
  split
  · exact Code.hasPairs_nil
  · have hd := hasPairs_dictionary fun (rename : Text × Text) (_ : rename ∈ renames) =>
      hasPairs_entry (Code.hasPairs_quote rename.2) rename.1
    rw [List.flatMap_eq_nil_iff.mpr fun _ _ => rfl] at hd
    exact hcomma.append hd

def arguments : RegistrationCall → Text
  | .enum sqlName className => Module.quote sqlName ++ (", " ++ className)
  | .record className kinds renames =>
    let renames : Text :=
      if renames.isEmpty then []
      else ", " ++ dictionary (renames.map fun (key, name) => entry key (Module.quote name))
    className ++ ", " ++ dictionary (kinds.map fun (key, kind) => entry key kind.render) ++ renames

theorem render_eq (c : RegistrationCall) :
    c.render = c.function ++ "(" ++ c.arguments ++ ")" ++ ['\n'] := by
  have hclose : ")\n".toList = ")".toList ++ ['\n'] := by decide
  cases c with
  | enum sqlName className =>
    have hopen : "_register_enum(".toList = "_register_enum".toList ++ "(".toList := by decide
    unfold render arguments function
    rw [hopen, hclose]
    simp only [List.append_assoc]
  | record className kinds renames =>
    have hopen : "_register_record(".toList = "_register_record".toList ++ "(".toList := by decide
    unfold render arguments function
    rw [hopen, hclose]
    simp only [entry, List.append_assoc]

theorem hasPairs_arguments {c : RegistrationCall}
    (hp : ∀ name ∈ c.classNames, Name.IsProper name) :
    HasPairs (['('] ++ (c.arguments ++ ")\n".toList)) (c.descriptors.flatMap Descriptor.tags) := by
  cases c with
  | enum sqlName className =>
    have hcomma : ", ".toList = [',', ' '] := by decide
    have hname := hp className List.mem_cons_self
    have hbody : HasPairs (className ++ ")\n".toList) [] :=
      Code.hasPairs_ending (Code.isBare_of_isPlain hname.plain) (by decide) (by decide) (by decide)
    have hr := hbody.second ((Code.startsBare_of_isProper hname).append _) sqlName
    unfold arguments descriptors
    rw [hcomma, List.flatMap_nil]
    simpa only [List.append_assoc] using hr
  | record className kinds renames =>
    have hclose : HasPairs ")\n".toList [] := Code.hasPairs_bare (by decide) (by decide)
    have hname := hp className List.mem_cons_self
    have hfirst : HasPairs (className ++ ", ".toList) [] :=
      Code.hasPairs_ending (Code.isBare_of_isPlain hname.plain) (by decide) (by decide) (by decide)
    have hkinds : HasPairs (dictionary (kinds.map fun kind => entry kind.1 kind.2.render))
        (kinds.flatMap fun kind => kind.2.tags) := by
      refine hasPairs_dictionary fun kind hm => hasPairs_entry (Descriptor.hasPairs_render ?_) _
      exact fun name hn => hp name (List.mem_cons_of_mem _ (List.mem_flatMap.mpr ⟨kind, hm, hn⟩))
    have hr := (((hfirst.append hkinds).append (hasPairs_renames renames)).append
      hclose).opened (by
        simp only [List.append_assoc]
        exact (Code.startsBare_of_isProper hname).append _)
    unfold arguments descriptors
    rw [List.flatMap_map]
    simpa only [List.append_assoc, List.nil_append, List.append_nil] using hr

theorem hasPairs_render {c : RegistrationCall} (hp : ∀ name ∈ c.classNames, Name.IsProper name) :
    HasPairs c.render (c.descriptors.flatMap Descriptor.tags) := by
  have hopen : "(".toList = ['('] := by decide
  have hclose : ")\n".toList = ")".toList ++ ['\n'] := by decide
  have henum : HasPairs "_register_enum".toList [] := Code.hasPairs_bare (by decide) (by decide)
  have hrecord : HasPairs "_register_record".toList [] :=
    Code.hasPairs_bare (by decide) (by decide)
  have hfunction : HasPairs c.function [] := by
    cases c with
    | enum sqlName className => exact henum
    | record className kinds renames => exact hrecord
  have hr := hfunction.append (hasPairs_arguments hp)
  rw [hclose] at hr
  rw [render_eq, hopen]
  simpa only [List.append_assoc, List.nil_append] using hr

end RegistrationCall

namespace RowValue

theorem hasPairs_render {v : RowValue} (hp : ∀ c ∈ v.classNames, Name.IsProper c) :
    HasPairs v.render (v.descriptors.flatMap Descriptor.tags) := by
  cases v with
  | first => exact Code.hasPairs_bare (by decide) (by decide)
  | decoded descriptor =>
    have hopen : "_decode_value(".toList = "_decode_value".toList ++ ['('] := by decide
    have hfunction : HasPairs "_decode_value".toList [] :=
      Code.hasPairs_bare (by decide) (by decide)
    have hrow : HasPairs ", row[0])".toList [] := Code.hasPairs_bare (by decide) (by decide)
    have hargs := ((Descriptor.hasPairs_render hp).append hrow).opened
      (descriptor.startsBare_render.append _)
    have hr := hfunction.append hargs
    unfold render descriptors
    rw [hopen, List.flatMap_singleton]
    simpa only [List.append_assoc, List.nil_append, List.append_nil] using hr
  | record className keepEmpty =>
    have hname := Code.isBare_of_isPlain (hp className List.mem_cons_self).plain
    have hopen : IsBare "_decode_row(".toList := by decide
    have hrow : IsBare ", colnames, row".toList := by decide
    refine Code.hasPairs_ending ((hopen.append hname).append hrow) ?_ ?_ ?_
    all_goals cases keepEmpty <;> decide
  | dictionary => exact Code.hasPairs_bare (by decide) (by decide)

end RowValue

namespace Fetch

theorem hasPairs_columns (value : RowValue) : HasPairs (render.columns margin value) [] := by
  unfold render.columns
  split
  · exact Code.hasPairs_bare (by decide) (by decide)
  · exact Code.hasPairs_nil

theorem hasPairs_render {f : Fetch} (hp : ∀ c ∈ f.classNames, Name.IsProper c) :
    HasPairs (f.render margin) (f.descriptors.flatMap Descriptor.tags) := by
  cases f with
  | nothing => exact Code.hasPairs_nil
  | one value =>
    have hopen : HasPairs (margin ++ "row = await cur.fetchone()\n" ++ margin ++
        "if row is None:\n" ++ margin ++ Module.indent ++ "return None\n") [] :=
      Code.hasPairs_bare (by decide) (by decide)
    have hreturn : HasPairs (margin ++ "return ") [] := Code.hasPairs_bare (by decide) (by decide)
    have hend : HasPairs "\n".toList [] := Code.hasPairs_bare (by decide) (by decide)
    have hr := hopen.append ((hasPairs_columns value).append (hreturn.append
      ((RowValue.hasPairs_render hp).append hend)))
    unfold render descriptors
    simpa only [List.append_assoc, List.nil_append, List.append_nil] using hr
  | all value =>
    have hopen : HasPairs (margin ++ "rows = await cur.fetchall()\n") [] :=
      Code.hasPairs_bare (by decide) (by decide)
    have hreturn : HasPairs (margin ++ "return [") [] :=
      Code.hasPairs_bare (by decide) (by decide)
    have hend : HasPairs " for row in rows]\n".toList [] :=
      Code.hasPairs_bare (by decide) (by decide)
    have hr := hopen.append ((hasPairs_columns value).append (hreturn.append
      ((RowValue.hasPairs_render hp).append hend)))
    unfold render descriptors
    simpa only [List.append_assoc, List.nil_append, List.append_nil] using hr

end Fetch

namespace PassedValue

/-- A character of names, or one of the others that passed values are written with. -/
def isValueChar (c : Char) : Bool :=
  Name.isIdentifierChar c || [' ', '(', ')', '[', ']', ',', '.'].contains c

theorem all_render {v : PassedValue} (hp : Name.IsPlain v.identifier) :
    v.render.all isValueChar = true := by
  have hi : v.identifier.all isValueChar = true := by
    refine List.all_eq_true.mpr fun c hc => ?_
    rw [isValueChar, hp c hc, Bool.true_or]
  cases v with
  | plain identifier => exact hi
  | json identifier =>
    have hopen : "_encode_json(".toList.all isValueChar = true := by decide
    have hclose : ")".toList.all isValueChar = true := by decide
    have hi : identifier.all isValueChar = true := hi
    unfold render
    simp only [List.all_append, hopen, hi, hclose, Bool.and_self]
  | member identifier =>
    have htest : ".value if isinstance(".toList.all isValueChar = true := by decide
    have helse : ", Enum) else ".toList.all isValueChar = true := by decide
    have hi : identifier.all isValueChar = true := hi
    unfold render
    simp only [List.all_append, hi, htest, helse, Bool.and_self]
  | members identifier =>
    have hopen : "[v.value if isinstance(v, Enum) else v for v in ".toList.all isValueChar =
        true := by decide
    have hif : "] if ".toList.all isValueChar = true := by decide
    have hnone : " is not None else None".toList.all isValueChar = true := by decide
    have hi : identifier.all isValueChar = true := hi
    unfold render
    simp only [List.all_append, hopen, hi, hif, hnone, Bool.and_self]

end PassedValue

theorem WrapperCode.all_values {c : WrapperCode}
    (hp : ∀ p ∈ c.params, Name.IsProper p.value.identifier) :
    ∀ d ∈ Text.join ", " c.values, PassedValue.isValueChar d = true := by
  intro d h
  rcases Text.mem_join h with h | ⟨value, hv, h⟩
  · have hcomma : ", ".toList.all PassedValue.isValueChar = true := by decide
    exact List.all_eq_true.mp hcomma d h
  · obtain ⟨p, hm, rfl⟩ := List.mem_map.mp hv
    exact List.all_eq_true.mp (PassedValue.all_render (hp p hm).plain) d h

namespace WrapperCode

theorem hasPairs_call {c : WrapperCode} (hp : ∀ p ∈ c.params, Name.IsProper p.value.identifier) :
    HasPairs (['('] ++ (c.executeArguments ++ ")\n".toList)) [] := by
  unfold executeArguments
  dsimp only
  split
  · have hclose : HasPairs ")\n".toList [] := Code.hasPairs_bare (by decide) (by decide)
    exact hclose.only ⟨')', _, rfl, by decide⟩ (by decide) c.query
  · have hopen : ", [".toList = [',', ' '] ++ "[".toList := by decide
    have hvalues : IsBare (Text.join ", " c.values) := by
      have hmarks : Code.marks.all (fun d => !PassedValue.isValueChar d) = true := by decide
      intro d hd hm
      have hd := all_values hp d hd
      have hm := List.all_eq_true.mp hmarks d hm
      rw [hd] at hm
      cases hm
    have hbracket : IsBare "[".toList := by decide
    have hlist : HasPairs ("[".toList ++ Text.join ", " c.values ++ "])\n".toList) [] :=
      Code.hasPairs_ending (hbracket.append hvalues) (by decide) (by decide) (by decide)
    have hclose : "])\n".toList = "]".toList ++ ")\n".toList := by decide
    have hr := hlist.second ⟨'[', _, rfl, by decide⟩ c.query
    rw [hopen]
    simpa only [hclose, List.append_assoc] using hr

theorem hasPairs_body {c : WrapperCode} (hp : ∀ p ∈ c.params, Name.IsProper p.value.identifier)
    (hf : ∀ name ∈ c.fetch.classNames, Name.IsProper name) :
    HasPairs c.body (c.fetch.descriptors.flatMap Descriptor.tags) := by
  have hopen : Module.indent ++ "async with conn.cursor() as cur:\n" ++ Fetch.margin ++
      "await cur.execute(" = (Module.indent ++ "async with conn.cursor() as cur:\n" ++
        Fetch.margin ++ "await cur.execute" : Text) ++ ['('] := by decide
  have hfront : HasPairs (Module.indent ++ "async with conn.cursor() as cur:\n" ++
      Fetch.margin ++ "await cur.execute") [] := Code.hasPairs_bare (by decide) (by decide)
  have hr := (hfront.append (hasPairs_call hp)).append (Fetch.hasPairs_render hf)
  unfold body
  rw [hopen]
  simpa only [List.append_assoc, List.nil_append] using hr

end WrapperCode

end Bindery

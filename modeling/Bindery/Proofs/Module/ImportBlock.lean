import Bindery.Proofs.Basic.Lists
import Bindery.Proofs.Binding.ProperNames
import Bindery.Proofs.Module.Imported

namespace Bindery

open Code (Mention mention words call Reads Ends)

/-- A passage of code, with the names that it binds itself and the classes that it means. -/
structure Passage where
  text : Text
  bound : List Text := []
  classes : List Text := []

namespace Passage

/-- The names of other modules in the passage are imported, if they mean anything but its own. -/
def Supplied (i : Imports) (p : Passage) : Prop :=
  ∃ mentions, Reads p.text mentions ∧ ∀ m ∈ mentions, m.name ∈ Code.standardNames →
    m.name ∈ p.bound ∨ m.name ∈ p.classes ∨ i.binds m.name = true

theorem Supplied.mono {i j : Imports} {p : Passage} (h : p.Supplied i)
    (hij : ∀ name, i.binds name = true → j.binds name = true) : p.Supplied j := by
  obtain ⟨mentions, hr, hs⟩ := h
  refine ⟨mentions, hr, ?_⟩
  intro m hm hn
  rcases hs m hm hn with h | h | h
  · exact .inl h
  · exact .inr (.inl h)
  · exact .inr (.inr (hij m.name h))

end Passage

def Hint.passage (h : Hint) : Passage :=
  { text := h.render, classes := h.classNames }

def Literal.passage (l : Literal) : Passage :=
  { text := l.render, classes := l.classNames }

/-- The passages of a declared parameter: its hint, and its default if that is a literal. -/
def ParameterCode.passages (p : ParameterCode) : List Passage :=
  p.hint.passage :: match p.default with
    | some (.literal l) => [l.passage]
    | _ => []

def WrapperCode.bodyPassage (c : WrapperCode) : Passage where
  text := c.body
  bound := c.params.map ParameterCode.identifier
  classes := c.fetch.classNames

def WrapperCode.passages (c : WrapperCode) : List Passage :=
  c.params.flatMap ParameterCode.passages ++ [c.result.passage, c.bodyPassage]

namespace Block

/-- The passages of a block. A section of support code binds the names of its loops. -/
def passages : Block → List Passage
  | .enumClass _ => [{ text := "(Enum)" }]
  | .recordClass r => { text := "@dataclass" } :: r.fields.map fun f => f.hint.passage
  | .support part =>
    [{ text := part.render, bound := ((Code.read? part.render).map Code.loopNames).getD [] }]
  | .registrations calls =>
    [{ text := calls.flatMap RegistrationCall.render
       classes := calls.flatMap RegistrationCall.classNames }]
  | .wrapper c => c.passages
  | .manifest _ => []

end Block

namespace Code

/-- Every name is a plain word or satisfies `P`. -/
def NamesIn (P : Text → Prop) (mentions : List Mention) : Prop :=
  ∀ m ∈ mentions, m.name ∈ plainWords ∨ P m.name

section NamesIn

variable {P Q : Text → Prop} {x y : List Mention}

theorem NamesIn.append (hx : NamesIn P x) (hy : NamesIn P y) : NamesIn P (x ++ y) := by
  intro m hm
  rcases List.mem_append.mp hm with hm | hm
  · exact hx m hm
  · exact hy m hm

theorem NamesIn.mono (h : NamesIn P x) (hpq : ∀ name, P name → Q name) : NamesIn Q x := by
  intro m hm
  exact (h m hm).imp id (hpq m.name)

theorem namesIn_plain (h : x.all (fun m => plainWords.contains m.name) = true) : NamesIn P x := by
  intro m hm
  exact .inl (List.contains_iff_mem.mp (List.all_eq_true.mp h m hm))

theorem namesIn_mention {name : Text} (h : P name) (called : Bool) :
    NamesIn P (mention name called) := by
  intro m hm
  unfold mention at hm
  split at hm
  · cases hm
  · rw [List.mem_singleton.mp hm]
    exact .inr h

theorem namesIn_flatMap {α : Type} {xs : List α} {f : α → List Mention}
    (h : ∀ a ∈ xs, NamesIn P (f a)) : NamesIn P (xs.flatMap f) := by
  intro m hm
  obtain ⟨a, ha, hm⟩ := List.mem_flatMap.mp hm
  exact h a ha m hm

end NamesIn

end Code

open Code (NamesIn namesIn_plain namesIn_mention namesIn_flatMap)

theorem Passage.supplied_of_namesIn {p : Passage} {i : Imports} {mentions : List Mention}
    (hr : Reads p.text mentions) (hn : NamesIn (fun name =>
      name ∈ p.bound ∨ name ∈ p.classes ∨ i.binds name = true) mentions) : p.Supplied i := by
  refine ⟨mentions, hr, ?_⟩
  intro m hm hs
  exact (hn m hm).resolve_left fun hp => Code.not_standard hp hs

namespace Hint

/-- A name that a hint may mention. -/
def Supplies (h : Hint) (name : Text) : Prop :=
  name ∈ h.classNames ∨ h.imports.binds name = true

theorem namesIn_scalar (s : Scalar) : s.mentions.all (fun m =>
    Code.plainWords.contains m.name || (Hint.scalar s).imports.binds m.name) = true := by
  cases s <;> decide

theorem namesIn_mentions (h : Hint) : NamesIn h.Supplies h.mentions := by
  induction h with
  | none => exact namesIn_plain (by decide)
  | any =>
    have ha : any.imports.binds "Any" = true := by decide
    intro m hm
    cases List.mem_singleton.mp hm
    exact .inr (.inr ha)
  | scalar s =>
    intro m hm
    have hb := List.all_eq_true.mp (namesIn_scalar s) m hm
    rw [Bool.or_eq_true, List.contains_iff_mem] at hb
    exact hb.imp id .inr
  | named className => exact namesIn_mention (.inl List.mem_cons_self) false
  | list item ih =>
    have hl : (Imports.ofNames "typing" ["List"]).binds "List" = true := by decide
    refine NamesIn.append ?_ (ih.mono ?_)
    · intro m hm
      cases List.mem_singleton.mp hm
      refine .inr (.inr ?_)
      rw [imports, Imports.binds_append, hl, Bool.true_or]
    · intro name hn
      refine hn.imp id fun hb => ?_
      rw [imports, Imports.binds_append, hb, Bool.or_true]
  | optional item ih =>
    have ho : (Imports.ofNames "typing" ["Optional"]).binds "Optional" = true := by decide
    refine NamesIn.append ?_ (ih.mono ?_)
    · intro m hm
      cases List.mem_singleton.mp hm
      refine .inr (.inr ?_)
      rw [imports, Imports.binds_append, ho, Bool.true_or]
    · intro name hn
      refine hn.imp id fun hb => ?_
      rw [imports, Imports.binds_append, hb, Bool.or_true]

theorem supplied {h : Hint} (hp : ∀ c ∈ h.classNames, Name.IsProper c) :
    h.passage.Supplied h.imports :=
  Passage.supplied_of_namesIn (reads_render hp) (h.namesIn_mentions.mono fun _ hn => .inr hn)

end Hint

def Literal.MadeFor (enums : List EnumClass) (type : ValueType) : Literal → Prop
  | .decimal _ => type = .scalar .decimal
  | .uuid _ => type = .scalar .uuid
  | .member className name =>
    ∃ e ∈ enums, e.className = className ∧ ∃ m ∈ e.members, m.name = name
  | _ => True

theorem EnumClass.mem_of_member? {e : EnumClass} {label : Text} {m : EnumMember}
    (h : e.member? label = some m) : m ∈ e.members := by
  unfold member? at h
  rcases Option.or_eq_some_iff.mp h with h | ⟨-, h⟩
  · exact List.mem_of_find?_eq_some h
  · exact List.mem_of_find?_eq_some h

theorem Head.madeFor_literal? {enums : List EnumClass} {type : ValueType} {head : Head}
    {literal : Literal} (h : head.literal? enums type = some literal) :
    literal.MadeFor enums type := by
  unfold Head.literal? at h
  split at h
  case h_1 =>
    obtain ⟨numeral, -, h⟩ := Option.bind_eq_some_iff.mp h
    obtain ⟨value, -, h⟩ := Option.bind_eq_some_iff.mp h
    cases h
    trivial
  case h_2 =>
    obtain ⟨numeral, -, h⟩ := Option.bind_eq_some_iff.mp h
    unfold float? at h
    split at h
    · obtain ⟨value, -, rfl⟩ := Option.map_eq_some_iff.mp h
      trivial
    · cases h
  case h_3 =>
    obtain ⟨numeral, -, h⟩ := Option.bind_eq_some_iff.mp h
    obtain ⟨value, -, h⟩ := Option.bind_eq_some_iff.mp h
    cases h
    rfl
  case h_4 =>
    cases h
    trivial
  case h_5 =>
    obtain ⟨value, -, rfl⟩ := Option.map_eq_some_iff.mp h
    trivial
  case h_6 =>
    cases h
    trivial
  case h_7 =>
    split at h <;> cases h
    rfl
  case h_8 =>
    obtain ⟨enum, he, h⟩ := Option.bind_eq_some_iff.mp h
    obtain ⟨member, hm, h⟩ := Option.bind_eq_some_iff.mp h
    cases h
    have hn := List.find?_some he
    exact ⟨enum, List.mem_of_find?_eq_some he, by simpa using hn, member,
      EnumClass.mem_of_member? hm, rfl⟩
  case h_9 => cases h

theorem Default.madeFor_ofArgument? {enums : List EnumClass} {a : Argument} {literal : Literal}
    (h : ofArgument? enums a = some (.literal literal)) : literal.MadeFor enums a.type := by
  obtain ⟨value, -, h⟩ := Option.map_eq_some_iff.mp h
  dsimp only at h
  split at h
  · cases h
  · split at h
    · rename_i hl
      cases h
      obtain ⟨head, -, hl⟩ := Option.bind_eq_some_iff.mp hl
      exact Head.madeFor_literal? hl
    · cases h

namespace Literal

variable {enums : List EnumClass} {type : ValueType} {l : Literal}

theorem MadeFor.isProper (h : l.MadeFor enums type)
    (hc : ∀ e ∈ enums, Name.IsProper e.className)
    (hm : ∀ e ∈ enums, ∀ m ∈ e.members, Name.IsPlain m.name) : l.IsProper := by
  cases l with
  | member className name =>
    obtain ⟨e, he, rfl, m, hmem, rfl⟩ := h
    exact ⟨hc e he, hm e he m hmem⟩
  | _ => trivial

/-- A literal that calls a class is made for a type whose hint is that class. -/
theorem MadeFor.namesIn_mentions (h : l.MadeFor enums type) (isOptional : Bool) :
    NamesIn (fun name => name ∈ l.classNames ∨
      (type.hintFor isOptional).imports.binds name = true) l.mentions := by
  cases l with
  | integer => exact namesIn_plain rfl
  | float => exact namesIn_plain rfl
  | text => exact namesIn_plain rfl
  | boolean value => cases value <;> exact namesIn_plain (by decide)
  | member className name => exact namesIn_mention (.inl List.mem_cons_self) false
  | decimal numeral =>
    cases (h : type = .scalar .decimal)
    intro m hm
    cases List.mem_singleton.mp hm
    refine .inr (.inr ?_)
    cases isOptional <;> decide
  | uuid value =>
    cases (h : type = .scalar .uuid)
    intro m hm
    cases List.mem_singleton.mp hm
    refine .inr (.inr ?_)
    cases isOptional <;> decide

theorem MadeFor.supplied (h : l.MadeFor enums type) (hp : l.IsProper) (isOptional : Bool) :
    l.passage.Supplied (type.hintFor isOptional).imports :=
  Passage.supplied_of_namesIn (reads_render hp)
    ((h.namesIn_mentions isOptional).mono fun _ hn => .inr hn)

end Literal

theorem Descriptor.namesIn_mentions (d : Descriptor) : NamesIn (· ∈ d.classNames) d.mentions := by
  induction d with
  | plain => exact namesIn_plain (by decide)
  | scalar => exact namesIn_plain rfl
  | enum => exact namesIn_plain rfl
  | record className => exact namesIn_mention List.mem_cons_self false
  | list item ih => exact ih

theorem RowValue.namesIn_mentions (v : RowValue) : NamesIn (· ∈ v.classNames) v.mentions := by
  cases v with
  | first => exact namesIn_plain (by decide)
  | decoded descriptor =>
    exact (namesIn_plain (by decide)).append
      (descriptor.namesIn_mentions.append (namesIn_plain (by decide)))
  | record className keepEmpty =>
    refine (namesIn_plain (by decide)).append
      ((namesIn_mention List.mem_cons_self false).append (namesIn_plain ?_))
    cases keepEmpty <;> decide
  | dictionary => exact namesIn_plain (by decide)

namespace Fetch

theorem namesIn_columnMentions {P : Text → Prop} (value : RowValue) :
    NamesIn P (columnMentions value) := by
  unfold columnMentions
  split
  · exact namesIn_plain (by decide)
  · exact namesIn_plain rfl

theorem namesIn_mentions (f : Fetch) : NamesIn (· ∈ f.classNames) f.mentions := by
  cases f with
  | nothing => exact namesIn_plain rfl
  | one value =>
    exact (namesIn_plain (by decide)).append ((namesIn_columnMentions value).append
      ((namesIn_plain (by decide)).append value.namesIn_mentions))
  | all value =>
    exact (namesIn_plain (by decide)).append ((namesIn_columnMentions value).append
      ((namesIn_plain (by decide)).append
        (value.namesIn_mentions.append (namesIn_plain (by decide)))))

end Fetch

namespace PassedValue

def takesMember : PassedValue → Bool
  | .member _ | .members _ => true
  | .plain _ | .json _ => false

/-- A name that the value may mention. -/
def Means (v : PassedValue) (name : Text) : Prop :=
  name = v.identifier ∨ v.takesMember = true ∧ name = "Enum".toList

theorem namesIn_enum {P : Text → Prop} {x : List Mention} (hp : P "Enum") (h : x.all (fun m =>
    Code.plainWords.contains m.name || m.name == "Enum".toList) = true) : NamesIn P x := by
  intro m hm
  have hb := List.all_eq_true.mp h m hm
  rw [Bool.or_eq_true, List.contains_iff_mem, beq_iff_eq] at hb
  rcases hb with hb | hb
  · exact .inl hb
  · rw [hb]
    exact .inr hp

theorem namesIn_mentions (v : PassedValue) : NamesIn v.Means v.mentions := by
  have hi : NamesIn v.Means (mention v.identifier false) := namesIn_mention (.inl rfl) false
  cases v with
  | plain identifier => exact hi
  | json identifier => exact (namesIn_plain (by decide)).append hi
  | member identifier =>
    have he : NamesIn (member identifier).Means (words ["Enum", "else"]) :=
      namesIn_enum (.inr ⟨rfl, rfl⟩) (by decide)
    exact hi.append ((namesIn_plain (by decide)).append (hi.append (he.append hi)))
  | members identifier =>
    have he : NamesIn (members identifier).Means (words ["v", "if"] ++ [call "isinstance"] ++
        words ["v", "Enum", "else", "v", "for", "v", "in"]) :=
      namesIn_enum (.inr ⟨rfl, rfl⟩) (by decide)
    exact he.append (hi.append ((namesIn_plain (by decide)).append
      (hi.append (namesIn_plain (by decide)))))

end PassedValue

theorem RegistrationCall.namesIn_mentions (c : RegistrationCall) :
    NamesIn (· ∈ c.classNames) c.mentions := by
  cases c with
  | enum sqlName className =>
    exact (namesIn_plain (by decide)).append (namesIn_mention List.mem_cons_self false)
  | record className kinds renames =>
    refine (namesIn_plain (by decide)).append
      ((namesIn_mention List.mem_cons_self false).append (namesIn_flatMap ?_))
    intro kind hk
    apply kind.2.namesIn_mentions.mono
    intro name hn
    exact List.mem_cons_of_mem _ (List.mem_flatMap.mpr ⟨kind, hk, hn⟩)

namespace ParameterCode

theorem supplied_ofArgument {enums : List EnumClass} {a : Argument}
    (hc : ∀ className ∈ (ofArgument enums a).classNames, Name.IsProper className)
    (he : ∀ e ∈ enums, Name.IsProper e.className)
    (hm : ∀ e ∈ enums, ∀ m ∈ e.members, Name.IsPlain m.name) {p : Passage}
    (hp : p ∈ (ofArgument enums a).passages) :
    p.Supplied (ofArgument enums a).hint.imports := by
  rcases List.mem_cons.mp hp with rfl | hp
  · exact Hint.supplied fun c hcn => hc c (List.mem_append_left _ hcn)
  · split at hp
    · rename_i l hl
      cases List.mem_singleton.mp hp
      have hmade := Default.madeFor_ofArgument? hl
      exact hmade.supplied (hmade.isProper he hm) a.isOptional
    · cases hp

end ParameterCode

namespace WrapperCode

theorem binds_hint {c : WrapperCode} {p : ParameterCode} (hp : p ∈ c.params) {name : Text}
    (h : p.hint.imports.binds name = true) : c.imports.binds name = true := by
  rw [imports, Imports.binds_append, Imports.binds_append,
    Imports.binds_concat (List.mem_map_of_mem (f := fun p => p.hint.imports) hp) h]
  rfl

theorem binds_result {c : WrapperCode} {name : Text} (h : c.result.imports.binds name = true) :
    c.imports.binds name = true := by
  rw [imports, Imports.binds_append, Imports.binds_append, h, Bool.or_true, Bool.true_or]

theorem binds_enum {c : WrapperCode} {p : ParameterCode} (hp : p ∈ c.params)
    (h : p.value.takesMember = true) : c.imports.binds "Enum" = true := by
  have hb : (Imports.ofNames "enum" ["Enum"]).binds "Enum" = true := by decide
  have hu : c.usesMembers = true := by
    refine List.any_eq_true.mpr ⟨p, hp, ?_⟩
    cases hv : p.value <;> rw [hv] at h <;> first | rfl | cases h
  rw [imports, Imports.binds_append, hu, if_pos rfl, hb, Bool.or_true]

theorem supplied_body {c : WrapperCode} (hr : Reads c.body c.mentions)
    (hi : ∀ p ∈ c.params, p.value.identifier = p.identifier) :
    c.bodyPassage.Supplied c.imports := by
  apply Passage.supplied_of_namesIn hr
  refine (namesIn_plain (by decide)).append ((namesIn_flatMap ?_).append ?_)
  · intro p hm
    apply p.value.namesIn_mentions.mono
    rintro name (rfl | ⟨ht, rfl⟩)
    · rw [hi p hm]
      exact .inl (List.mem_map_of_mem hm)
    · exact .inr (.inr (binds_enum hm ht))
  · apply c.fetch.namesIn_mentions.mono
    intro name hn
    exact .inr (.inl hn)

theorem supplied_ofWrapper {enums : List EnumClass} {w : Wrapper}
    (hc : ∀ className ∈ (ofWrapper enums w).classNames, Name.IsProper className)
    (ha : ∀ a ∈ w.params, Name.IsProper a.identifier)
    (he : ∀ e ∈ enums, Name.IsProper e.className)
    (hm : ∀ e ∈ enums, ∀ m ∈ e.members, Name.IsPlain m.name) {p : Passage}
    (hp : p ∈ (ofWrapper enums w).passages) : p.Supplied (ofWrapper enums w).imports := by
  rcases List.mem_append.mp hp with hp | hp
  · obtain ⟨param, hparam, hp⟩ := List.mem_flatMap.mp hp
    refine Passage.Supplied.mono ?_ fun _ hb => binds_hint hparam hb
    obtain ⟨a, -, rfl⟩ := List.mem_map.mp hparam
    refine ParameterCode.supplied_ofArgument (fun className hn => hc className ?_) he hm hp
    exact List.mem_append_left _ (List.mem_append_left _ (List.mem_flatMap.mpr ⟨_, hparam, hn⟩))
  · rcases List.mem_cons.mp hp with rfl | hp
    · have hr : ∀ c ∈ (ofWrapper enums w).result.classNames, Name.IsProper c := fun c hn =>
        hc c (List.mem_append_left _ (List.mem_append_right _ hn))
      exact (Hint.supplied hr).mono fun _ hb => binds_result hb
    · cases List.mem_singleton.mp hp
      apply supplied_body (reads_body_ofWrapper hc ha)
      intro param hparam
      obtain ⟨a, -, rfl⟩ := List.mem_map.mp hparam
      exact ParameterCode.identifier_valueOf a

end WrapperCode

namespace Block

theorem supplied_enumClass {e : EnumClass} {p : Passage} (hp : p ∈ (enumClass e).passages) :
    p.Supplied (enumClass e).imports := by
  have hr : Reads "(Enum)".toList (words ["Enum"]) := by decide
  have hb : (Imports.ofNames "enum" ["Enum"]).binds "Enum" = true := by decide
  cases List.mem_singleton.mp hp
  refine ⟨_, hr, ?_⟩
  intro m hm _
  cases List.mem_singleton.mp hm
  exact .inr (.inr hb)

theorem supplied_recordClass {r : RecordClass}
    (hc : ∀ className ∈ (recordClass r).uses, Name.IsProper className) {p : Passage}
    (hp : p ∈ (recordClass r).passages) : p.Supplied (recordClass r).imports := by
  rcases List.mem_cons.mp hp with rfl | hp
  · have hr : Reads "@dataclass".toList (words ["dataclass"]) := by decide
    have hb : (Imports.ofNames "dataclasses" ["dataclass"]).binds "dataclass" = true := by
      decide
    refine ⟨_, hr, ?_⟩
    intro m hm _
    cases List.mem_singleton.mp hm
    refine .inr (.inr ?_)
    rw [imports, RecordClass.imports, Imports.binds_append, hb, Bool.true_or]
  · obtain ⟨f, hf, rfl⟩ := List.mem_map.mp hp
    have hh : f.hint.passage.Supplied f.hint.imports :=
      Hint.supplied fun c hn => hc c (List.mem_flatMap.mpr ⟨f, hf, hn⟩)
    refine hh.mono fun name hb => ?_
    rw [imports, RecordClass.imports, Imports.binds_append,
      Imports.binds_concat (List.mem_map_of_mem (f := fun f : Field => f.hint.imports) hf) hb,
      Bool.or_true]

theorem supplied_support {part : SupportSection} {p : Passage}
    (hp : p ∈ (support part).passages) : p.Supplied (support part).imports := by
  cases List.mem_singleton.mp hp
  obtain ⟨mentions, hr, hs⟩ := part.supplied_render
  have hread : Code.read? part.render = some mentions := hr
  refine ⟨mentions, hr, ?_⟩
  intro m hm hn
  rcases hs m hm hn with h | h
  · exact .inr (.inr h)
  · left
    rw [hread]
    exact h

theorem supplied_registrations {calls : List RegistrationCall}
    (hc : ∀ className ∈ (registrations calls).uses, Name.IsProper className) {p : Passage}
    (hp : p ∈ (registrations calls).passages) : p.Supplied (registrations calls).imports := by
  cases List.mem_singleton.mp hp
  refine Passage.supplied_of_namesIn (RegistrationCall.reads_all hc) (namesIn_flatMap ?_)
  intro c hm
  apply c.namesIn_mentions.mono
  intro name hn
  exact .inr (.inl (List.mem_flatMap.mpr ⟨c, hm, hn⟩))

theorem classes_subset_uses {block : Block} {p : Passage} (hp : p ∈ block.passages) :
    p.classes ⊆ block.uses := by
  cases block with
  | enumClass e =>
    cases List.mem_singleton.mp hp
    exact List.nil_subset _
  | recordClass r =>
    rcases List.mem_cons.mp hp with rfl | hp
    · exact List.nil_subset _
    · obtain ⟨f, hf, rfl⟩ := List.mem_map.mp hp
      exact fun c hc => List.mem_flatMap.mpr ⟨f, hf, hc⟩
  | support part =>
    cases List.mem_singleton.mp hp
    exact List.nil_subset _
  | registrations calls =>
    cases List.mem_singleton.mp hp
    exact List.Subset.refl _
  | manifest names => cases hp
  | wrapper c =>
    have hparams {q : ParameterCode} (hq : q ∈ c.params) : q.classNames ⊆ c.classNames :=
      fun name hn => List.mem_append_left _ (List.mem_append_left _
        (List.mem_flatMap.mpr ⟨q, hq, hn⟩))
    rcases List.mem_append.mp hp with hp | hp
    · obtain ⟨q, hq, hp⟩ := List.mem_flatMap.mp hp
      refine List.Subset.trans ?_ (hparams hq)
      rcases List.mem_cons.mp hp with rfl | hp
      · exact List.subset_append_left _ _
      · split at hp
        · rename_i l hl
          cases List.mem_singleton.mp hp
          refine fun name hn => List.mem_append_right _ ?_
          rw [hl]
          exact List.mem_flatMap.mpr ⟨_, List.mem_singleton.mpr rfl, hn⟩
        · cases hp
    · rcases List.mem_cons.mp hp with rfl | hp
      · exact fun name hn => List.mem_append_left _ (List.mem_append_right _ hn)
      · cases List.mem_singleton.mp hp
        exact List.subset_append_right _ _

end Block

namespace ParameterCode

theorem infix_declaration {p : ParameterCode} {passage : Passage} (h : passage ∈ p.passages) :
    passage.text <:+: p.declaration := by
  have hhint : p.hint.render <:+: p.identifier ++ ": " ++ p.hint.render :=
    (List.suffix_append _ _).isInfix
  unfold declaration
  rcases List.mem_cons.mp h with rfl | h
  · split
    · exact hhint
    · exact (hhint.trans (List.prefix_append _ _).isInfix).trans (List.prefix_append _ _).isInfix
    · exact hhint.trans (List.prefix_append _ _).isInfix
    · exact hhint.trans (List.prefix_append _ _).isInfix
  · split at h
    · rename_i l hl
      cases List.mem_singleton.mp h
      rw [hl]
      exact (List.suffix_append _ _).isInfix
    · cases h

end ParameterCode

namespace WrapperCode

theorem infix_signature {c : WrapperCode} {p : ParameterCode} (h : p ∈ c.params) :
    p.declaration <:+: c.signature := by
  have hm : p.declaration ∈
      "conn: AsyncConnection".toList :: c.params.map ParameterCode.declaration :=
    List.mem_cons_of_mem _ (List.mem_map_of_mem h)
  unfold signature
  dsimp only
  split
  · have hj : p.declaration <:+: Text.join ", " _ := Text.infix_of_mem_join hm
    exact ((hj.trans (List.suffix_append _ _).isInfix).trans
      (List.prefix_append _ _).isInfix).trans (List.prefix_append _ _).isInfix
  · have hl := infix_flatMap (f := fun p => Module.indent ++ p ++ ",\n".toList) hm
    have hd : p.declaration <:+: Module.indent ++ p.declaration ++ ",\n".toList :=
      List.infix_append _ _ _
    exact (((hd.trans hl).trans (List.suffix_append _ _).isInfix).trans
      (List.prefix_append _ _).isInfix).trans (List.prefix_append _ _).isInfix

theorem infix_signature_result (c : WrapperCode) : c.result.render <:+: c.signature := by
  have hc : c.result.render <:+: ") -> " ++ c.result.render ++ ":" := List.infix_append _ _ _
  unfold signature
  dsimp only
  split
  · exact (hc.trans (List.suffix_append _ _).isInfix).trans (List.prefix_append _ _).isInfix
  · exact (hc.trans (List.suffix_append _ _).isInfix).trans (List.prefix_append _ _).isInfix

theorem infix_render {c : WrapperCode} {p : Passage} (h : p ∈ c.passages) :
    p.text <:+: c.render := by
  have hs : c.signature <:+: c.render := by
    rw [render_eq, List.append_assoc]
    exact (List.prefix_append _ _).isInfix
  rcases List.mem_append.mp h with h | h
  · obtain ⟨q, hq, h⟩ := List.mem_flatMap.mp h
    exact ((ParameterCode.infix_declaration h).trans (infix_signature hq)).trans hs
  · rcases List.mem_cons.mp h with rfl | h
    · exact c.infix_signature_result.trans hs
    · cases List.mem_singleton.mp h
      rw [render_eq]
      exact (List.suffix_append _ _).isInfix

end WrapperCode

theorem Block.infix_of_passage {block : Block} {p : Passage} (h : p ∈ block.passages) :
    p.text <:+: block.render := by
  cases block with
  | enumClass e =>
    cases List.mem_singleton.mp h
    have he : "(Enum):\n".toList = "(Enum)".toList ++ ":\n".toList := by decide
    unfold render EnumClass.render
    dsimp only
    rw [he]
    have hb : "(Enum)".toList <:+: "(Enum)".toList ++ ":\n".toList :=
      (List.prefix_append _ _).isInfix
    exact (hb.trans (List.suffix_append _ _).isInfix).trans (List.prefix_append _ _).isInfix
  | recordClass r =>
    rcases List.mem_cons.mp h with rfl | h
    · have he : "@dataclass\nclass ".toList = "@dataclass".toList ++ "\nclass ".toList := by
        decide
      unfold render RecordClass.render
      dsimp only
      rw [he, List.append_assoc, List.append_assoc, List.append_assoc, List.append_assoc,
        List.append_assoc]
      exact (List.prefix_append _ _).isInfix
    · obtain ⟨f, hf, rfl⟩ := List.mem_map.mp h
      have hl := infix_flatMap
        (f := fun f : Field => Module.indent ++ f.identifier ++ ": ".toList ++ f.hint.render ++
          "\n".toList) hf
      have hh : f.hint.render <:+: Module.indent ++ f.identifier ++ ": ".toList ++ f.hint.render ++
          "\n".toList := List.infix_append _ _ _
      exact (hh.trans hl).trans (List.suffix_append _ _).isInfix
  | support part =>
    cases List.mem_singleton.mp h
    exact List.infix_rfl
  | registrations calls =>
    cases List.mem_singleton.mp h
    exact List.infix_rfl
  | manifest names => cases h
  | wrapper c => exact WrapperCode.infix_render h

namespace Binding

variable {s : Schema} {plans : List (Plan × List Diagnostic)} {records : List RecordClass}

theorem supplied_blocks (h : (assemble s plans).orderedRecords = .ok records) {options : Options}
    {block : Block} (hb : block ∈ (assemble s plans).blocks options records) {p : Passage}
    (hp : p ∈ block.passages) : p.Supplied block.imports := by
  have hproper := namesProper_assemble s plans
  have hc : ∀ className ∈ block.uses, Name.IsProper className := fun className hn =>
    hproper.classes className (classNamesInUse_of_defined h (uses_blocks h hb hn))
  cases block with
  | enumClass e => exact Block.supplied_enumClass hp
  | recordClass r => exact Block.supplied_recordClass hc hp
  | support part => exact Block.supplied_support hp
  | registrations calls => exact Block.supplied_registrations hc hp
  | manifest names => cases hp
  | wrapper code =>
    obtain ⟨w, hw, rfl⟩ := List.mem_map.mp (wrapper_mem_blocks.mp hb)
    apply WrapperCode.supplied_ofWrapper hc (hproper.parameters w hw)
    · intro e he
      exact hproper.classes e.className (List.mem_append_left _ (List.mem_map_of_mem he))
    · exact hproper.members
    · exact hp

end Binding

/--
The import block is complete. Whatever texts a module is generated from, each passage of its blocks
stands in the text and can be read; the classes that it means are defined by the module and have no
reserved name; and every other name of another module that the passage mentions and does not bind
is bound by an import line of the text.
-/
theorem generate_imports_complete {functions : Text} {shared : Option Text} {options : Options}
    {g : Generated} (h : generate functions shared options = .ok g) {block : Block}
    (hb : block ∈ g.source.blocks) {p : Passage} (hp : p ∈ block.passages) :
    p.text <:+: block.render ∧ Module.trimNewlines block.render <:+: g.code ∧
      (∀ className ∈ p.classes,
        className ∈ Block.defined g.source.blocks ∧ className ∉ reservedClasses) ∧
      ∃ mentions, Reads p.text mentions ∧ ∀ m ∈ mentions, m.name ∈ Code.standardNames →
        m.name ∈ p.bound ∨ m.name ∈ p.classes ∨ Code.Imported g.code m.name := by
  obtain ⟨s, b, hs, hbuild, hg⟩ := generate_eq_ok h
  obtain ⟨-, records, hr, rfl⟩ := Binding.exists_generated hg
  obtain ⟨plans, rfl⟩ := Binding.exists_assemble hbuild
  refine ⟨Block.infix_of_passage hp, Module.block_infix_render hb, ?_, ?_⟩
  · intro className hc
    have hd := Binding.uses_blocks hr hb (Block.classes_subset_uses hp hc)
    refine ⟨hd, ?_⟩
    exact Binding.apart_classes.unreserved className (Binding.classNamesInUse_of_defined hr hd)
  · obtain ⟨mentions, hreads, hsupplied⟩ := Binding.supplied_blocks hr hb hp
    refine ⟨mentions, hreads, ?_⟩
    intro m hm hn
    refine (hsupplied m hm hn).imp id (.imp id fun hbinds => ?_)
    apply Module.imported_of_binds (Block.isKnown_concat _)
    exact Imports.binds_concat (List.mem_map_of_mem hb) hbinds

/-- A default that calls a class, and a composite type with arrays. -/
def billSource : Text :=
  "CREATE TYPE line AS (paid timestamp[]);
   CREATE FUNCTION bill(price numeric DEFAULT 1.5) RETURNS SETOF line"

def billSchema : Schema where
  catalog := { composites := ⟨[⟨"line", [⟨"paid", "timestamp[]", true, none⟩]⟩], [("line", 0)]⟩ }
  functions := [⟨"bill", "bill", none,
    [⟨some "price".toList, .input, "numeric", some "1.5".toList⟩], ⟨.composite "line", true⟩,
    ⟨2, 4⟩⟩]

def lineClass : RecordClass :=
  ⟨"Line", "line", .composite,
    [⟨"paid", "paid", "timestamp[]", .array (.scalar .timestamp), true, false⟩]⟩

def priceArgument : Argument :=
  ⟨some "price".toList, "price", "numeric", .scalar .decimal, true, true, some "1.5".toList, false⟩

def billWrapper : Wrapper :=
  ⟨"bill", "bill", "bill", none, [priceArgument], ⟨.composite "line", true⟩, .record "Line"⟩

def billBinding : Binding where
  records := [lineClass]
  wrappers := [billWrapper]

theorem generate_imports_complete_of_bills :
    ∃ g, generate billSource none {} = .ok g ∧ Code.Imported g.code "Decimal" := by
  have hs : Schema.parse billSource none = .ok billSchema := by
    set_option maxRecDepth 1000 in
    rw [show billSource = _ from String.toList_ofList]
    decide +kernel
  have hb : Binding.build billSchema (Options.strict {}) = .ok billBinding := by decide +kernel
  have hc : billBinding.checkShadowing = .ok () := by decide
  have hr : billBinding.orderedRecords = .ok [lineClass] := by cbv
  have hg := (generate_of_build hs hb).trans (Binding.generate_of_ordered hc hr {})
  have hblock : .wrapper (WrapperCode.ofWrapper [] billWrapper) ∈
      billBinding.blocks {} [lineClass] :=
    Binding.wrapper_mem_blocks.mpr (List.mem_singleton.mpr rfl)
  have hd : Default.ofArgument? [] priceArgument = some (.literal (.decimal "1.5")) := by
    decide +kernel
  have hp : (Literal.decimal "1.5").passage ∈
      (Block.wrapper (WrapperCode.ofWrapper [] billWrapper)).passages := by
    refine List.mem_append_left _ (List.mem_flatMap.mpr
      ⟨ParameterCode.ofArgument [] priceArgument, List.mem_singleton.mpr rfl, ?_⟩)
    apply List.mem_cons_of_mem
    change _ ∈ match Default.ofArgument? [] priceArgument with
      | some (.literal l) => [l.passage]
      | _ => []
    rw [hd]
    exact List.mem_singleton.mpr rfl
  obtain ⟨-, -, -, mentions, hreads, hall⟩ := generate_imports_complete hg hblock hp
  have hm : Reads (Literal.decimal "1.5").render [call "Decimal"] := by decide
  have he : mentions = [call "Decimal"] := Option.some.inj (hreads.symm.trans hm)
  have hstandard : "Decimal".toList ∈ Code.standardNames :=
    Code.mem_standardNames (m := "decimal") (by decide)
  refine ⟨_, hg, ?_⟩
  rcases hall (call "Decimal") (he ▸ List.mem_singleton.mpr rfl) hstandard with h | h | h
  · cases h
  · cases h
  · exact h

end Bindery

import Bindery.Proofs.Basic.Lists
import Bindery.Proofs.Module.ClassUse
import Bindery.Proofs.Order.Counting
import Bindery.Proofs.Text.Sorted
import Mathlib.Data.List.Permutation

namespace Bindery

namespace Block

def enum? : Block → Option EnumClass
  | .enumClass enum => some enum
  | _ => none

def record? : Block → Option RecordClass
  | .recordClass record => some record
  | _ => none

def defined (blocks : List Block) : List Text :=
  blocks.filterMap defines?

theorem defined_append (xs ys : List Block) : defined (xs ++ ys) = defined xs ++ defined ys :=
  List.filterMap_append

theorem defined_enumClasses (enums : List EnumClass) :
    defined (enums.map .enumClass) = enums.map EnumClass.className := by
  rw [defined, List.filterMap_map]
  exact congrFun List.filterMap_eq_map enums

theorem defined_recordClasses (records : List RecordClass) :
    defined (records.map .recordClass) = records.map RecordClass.className := by
  rw [defined, List.filterMap_map]
  exact congrFun List.filterMap_eq_map records

/-- Every block needs only classes that are known or that blocks before it define. -/
def DefinedFrom (known : List Text) (blocks : List Block) : Prop :=
  ∀ front block back, blocks = front ++ block :: back →
    ∀ className ∈ block.uses, className ∈ known ++ defined front

theorem DefinedFrom.append {known : List Text} {xs ys : List Block} (hx : DefinedFrom known xs)
    (hy : DefinedFrom (known ++ defined xs) ys) : DefinedFrom known (xs ++ ys) := by
  intro front block back he className hc
  rcases List.append_eq_append_iff.mp he with ⟨more, rfl, hb⟩ | ⟨more, rfl, hb⟩
  · have hm := hy more block back hb className hc
    rwa [List.append_assoc, ← defined_append] at hm
  · cases more with
    | nil =>
      have hm := hy [] block back hb.symm className hc
      simpa [defined] using hm
    | cons first rest =>
      cases hb
      exact hx front block rest rfl className hc

theorem DefinedFrom.mono {known more : List Text} {blocks : List Block}
    (h : DefinedFrom known blocks) (hk : known ⊆ more) : DefinedFrom more blocks := by
  intro front block back he className hc
  rcases List.mem_append.mp (h front block back he className hc) with hm | hm
  · exact List.mem_append_left _ (hk hm)
  · exact List.mem_append_right _ hm

theorem definedFrom_of_known {known : List Text} {blocks : List Block}
    (h : ∀ block ∈ blocks, ∀ className ∈ block.uses, className ∈ known) :
    DefinedFrom known blocks := by
  rintro front block back rfl className hc
  exact List.mem_append_left _ (h block (by simp) className hc)

end Block

namespace Binding

def recordNodes (b : Binding) : List Node :=
  b.records.map fun r => ⟨r.className, r.references⟩

theorem order_of_orderedRecords {b : Binding} {records : List RecordClass}
    (h : b.orderedRecords = .ok records) :
    ∃ order, Order.sort b.recordNodes = .ok order ∧ records = order.filterMap (b.records[·]?) := by
  unfold orderedRecords at h
  split at h
  · rename_i order ho
    cases h
    exact ⟨order, ho, rfl⟩
  · cases h

theorem orderedRecords_perm {b : Binding} {records : List RecordClass}
    (h : b.orderedRecords = .ok records) : records.Perm b.records := by
  obtain ⟨order, ho, rfl⟩ := order_of_orderedRecords h
  have hp := (Order.sort_places ho).1
  rw [recordNodes, List.length_map] at hp
  have hm := hp.filterMap (b.records[·]?)
  rwa [filterMap_range_getElem?] at hm

theorem orderedRecords_earlier {b : Binding} {records front back : List RecordClass}
    {r : RecordClass} {className : Text} (hn : (b.records.map RecordClass.className).Nodup)
    (h : b.orderedRecords = .ok records) (he : records = front ++ r :: back)
    (hr : className ∈ r.references) (hc : className ∈ b.records.map RecordClass.className) :
    className ∈ front.map RecordClass.className := by
  obtain ⟨order, ho, rfl⟩ := order_of_orderedRecords h
  obtain ⟨before, after, rfl, rfl, ha⟩ := List.filterMap_eq_append_iff.mp he
  obtain ⟨skipped, i, after, rfl, hs, hi, _⟩ := List.filterMap_eq_cons_iff.mp ha
  have hnames : b.recordNodes.map Node.name = b.records.map RecordClass.className := by
    rw [recordNodes, List.map_map]
    rfl
  have hnode {j : Nat} {r : RecordClass} (hj : b.records[j]? = some r) :
      b.recordNodes[j]? = some ⟨r.className, r.references⟩ := by
    rw [recordNodes, List.getElem?_map, hj]
    rfl
  obtain ⟨other, hm, rfl⟩ := List.mem_map.mp hc
  obtain ⟨j, hj⟩ := List.mem_iff_getElem?.mp hm
  have hx : Order.indexOf? b.recordNodes other.className = some j :=
    (Order.indexOf?_eq_some_iff (hnames ▸ hn)).mpr ⟨_, hnode hj, rfl⟩
  have ht : j ∈ Order.targets b.recordNodes i := by
    rw [Order.targets, hnode hi]
    exact List.mem_filterMap.mpr ⟨_, Text.mem_sortedSet.mpr hr, hx⟩
  -- Indices without a record may stand in between; they are the nodes of no class.
  have hb := (Order.sort_places ho).2 (before ++ skipped) i after (List.append_assoc ..).symm j ht
  rcases List.mem_append.mp hb with hb | hb
  · exact List.mem_map_of_mem (List.mem_filterMap.mpr ⟨j, hb, hj⟩)
  · rw [hs j hb] at hj
    cases hj

/-- How a list of blocks presents the classes of a binding. -/
structure Emits (b : Binding) (blocks : List Block) : Prop where
  enums_once : (blocks.filterMap Block.enum?).Perm b.enums
  records_once : (blocks.filterMap Block.record?).Perm b.records
  distinct : (Block.defined blocks).Nodup
  enums_first : blocks.Pairwise fun x y => x.record?.isSome → y.enum? = none
  /-- What a block needs is defined strictly before it. -/
  before_use : ∀ front block back, blocks = front ++ block :: back →
    ∀ className ∈ block.uses, className ∈ Block.defined front

section Blocks

variable {s : Schema} {plans : List (Plan × List Diagnostic)} {records : List RecordClass}

/-- A record class names enum classes and record classes that come before it. -/
theorem definedFrom_records (h : (assemble s plans).orderedRecords = .ok records) :
    Block.DefinedFrom ((assemble s plans).enums.map EnumClass.className)
      (records.map .recordClass) := by
  intro front block back he className hc
  obtain ⟨before, after, rfl, rfl, ha⟩ := List.map_eq_append_iff.mp he
  obtain ⟨r, after, rfl, rfl, _⟩ := List.map_eq_cons_iff.mp ha
  obtain ⟨f, hf, hc⟩ := List.mem_flatMap.mp hc
  rw [Field.hint, ValueType.classNames_hintFor, Option.mem_toList] at hc
  have hm : r ∈ (assemble s plans).records := (orderedRecords_perm h).mem_iff.mp (by simp)
  rcases className_mem (field_type_mem hm hf) hc with henum | ⟨hr, hrecord⟩
  · exact List.mem_append_left _ henum
  · have hn := (List.nodup_append.mp (nodup_classes s plans)).2.1
    have href : className ∈ r.references := List.mem_filterMap.mpr ⟨f, hf, hr⟩
    have hb := orderedRecords_earlier hn h rfl href hrecord
    rw [Block.defined_recordClasses]
    exact List.mem_append_right _ hb

theorem enumsByName_perm (b : Binding) : b.enumsByName.Perm b.enums :=
  List.mergeSort_perm ..

theorem uses_registrations (h : (assemble s plans).orderedRecords = .ok records)
    {className : Text}
    (hc : className ∈ (Block.registrations ((assemble s plans).registrationCalls records)).uses) :
    className ∈ (assemble s plans).classNamesInUse := by
  obtain ⟨call, hcall, hc⟩ := List.mem_flatMap.mp hc
  rcases List.mem_append.mp hcall with hcall | hcall
  · obtain ⟨e, he, rfl⟩ := List.mem_map.mp hcall
    cases List.mem_singleton.mp hc
    have hm := (enumsByName_perm _).mem_iff.mp he
    exact List.mem_append_left _ (List.mem_map_of_mem hm)
  · obtain ⟨r, hr, hcall⟩ := List.mem_filterMap.mp hcall
    have hm := (orderedRecords_perm h).mem_iff.mp hr
    rcases RegistrationCall.classNames_ofRecord? hcall hc with rfl | ⟨f, hf, hc⟩
    · exact List.mem_append_right _ (List.mem_map_of_mem hm)
    · exact mem_classNamesInUse (field_type_mem hm hf) hc

theorem uses_wrapperCodes {code : WrapperCode} (h : code ∈ (assemble s plans).wrapperCodes)
    {className : Text} (hc : className ∈ code.classNames) :
    className ∈ (assemble s plans).classNamesInUse := by
  obtain ⟨w, hw, rfl⟩ := List.mem_map.mp h
  rcases WrapperCode.classNames_ofWrapper hc with ⟨t, ht, hc⟩ | henum
  · exact mem_classNamesInUse (wrapper_type_mem hw ht) hc
  · exact List.mem_append_left _ henum

def codeBlocks (b : Binding) (options : Options) (records : List RecordClass) : List Block :=
  (if options.omitSupport then [] else b.supportBlocks records) ++
    b.wrapperCodes.map .wrapper ++ [.manifest b.exports]

theorem blocks_eq (b : Binding) (options : Options) (records : List RecordClass) :
    b.blocks options records = b.enumsByName.map .enumClass ++
      (records.map .recordClass ++ b.codeBlocks options records) := by
  simp only [blocks, codeBlocks, List.append_assoc]

theorem codeBlocks_cases {b : Binding} {options : Options} {block : Block}
    (h : block ∈ b.codeBlocks options records) :
    block ∈ b.supportBlocks records ∨ (∃ code ∈ b.wrapperCodes, block = .wrapper code) ∨
      block = .manifest b.exports := by
  rw [codeBlocks, List.mem_append, List.mem_append, List.mem_map, List.mem_singleton] at h
  rcases h with (h | ⟨code, hc, rfl⟩) | h
  · split at h
    · cases h
    · exact .inl h
  · exact .inr (.inl ⟨code, hc, rfl⟩)
  · exact .inr (.inr h)

theorem supportBlocks_cases {b : Binding} {block : Block} (h : block ∈ b.supportBlocks records) :
    (∃ part, block = .support part) ∨ block = .registrations (b.registrationCalls records) := by
  rcases List.mem_append.mp h with h | h
  · obtain ⟨part, _, rfl⟩ := List.mem_map.mp h
    exact .inl ⟨part, rfl⟩
  · split at h
    · cases h
    · exact .inr (List.mem_singleton.mp h)

theorem blocks_cases {b : Binding} {options : Options} {block : Block}
    (h : block ∈ b.blocks options records) : (∃ e ∈ b.enumsByName, block = .enumClass e) ∨
      (∃ r ∈ records, block = .recordClass r) ∨ (∃ part, block = .support part) ∨
      block = .registrations (b.registrationCalls records) ∨
      (∃ code ∈ b.wrapperCodes, block = .wrapper code) ∨ block = .manifest b.exports := by
  rw [blocks_eq, List.mem_append, List.mem_append] at h
  rcases h with h | h | h
  · obtain ⟨e, he, rfl⟩ := List.mem_map.mp h
    exact .inl ⟨e, he, rfl⟩
  · obtain ⟨r, hr, rfl⟩ := List.mem_map.mp h
    exact .inr (.inl ⟨r, hr, rfl⟩)
  · rcases codeBlocks_cases h with h | h
    · rcases supportBlocks_cases h with h | h
      · exact .inr (.inr (.inl h))
      · exact .inr (.inr (.inr (.inl h)))
    · exact .inr (.inr (.inr (.inr h)))

theorem codeBlocks_define_nothing {b : Binding} {options : Options} {block : Block}
    (h : block ∈ b.codeBlocks options records) :
    block.enum? = none ∧ block.record? = none ∧ block.defines? = none := by
  rcases codeBlocks_cases h with h | ⟨code, _, rfl⟩ | rfl
  · rcases supportBlocks_cases h with ⟨part, rfl⟩ | rfl
    · exact ⟨rfl, rfl, rfl⟩
    · exact ⟨rfl, rfl, rfl⟩
  · exact ⟨rfl, rfl, rfl⟩
  · exact ⟨rfl, rfl, rfl⟩

theorem defined_blocks (b : Binding) (options : Options) (records : List RecordClass) :
    Block.defined (b.blocks options records) =
      b.enumsByName.map EnumClass.className ++ records.map RecordClass.className := by
  have hcode : Block.defined (b.codeBlocks options records) = [] :=
    List.filterMap_eq_nil_iff.mpr fun _ hb => (codeBlocks_define_nothing hb).2.2
  rw [blocks_eq, Block.defined_append, Block.defined_append, Block.defined_enumClasses,
    Block.defined_recordClasses, hcode, List.append_nil]

theorem uses_codeBlocks (h : (assemble s plans).orderedRecords = .ok records) {options : Options}
    {block : Block} (hb : block ∈ (assemble s plans).codeBlocks options records)
    {className : Text} (hc : className ∈ block.uses) :
    className ∈ (assemble s plans).classNamesInUse := by
  rcases codeBlocks_cases hb with hb | ⟨code, hcode, rfl⟩ | rfl
  · rcases supportBlocks_cases hb with ⟨part, rfl⟩ | rfl
    · cases hc
    · exact uses_registrations h hc
  · exact uses_wrapperCodes hcode hc
  · cases hc

theorem nodup_classNamesInUse (s : Schema) (plans : List (Plan × List Diagnostic)) :
    (assemble s plans).classNamesInUse.Nodup := by
  have hn := nodup_classes s plans
  rwa [List.map_map] at hn

theorem emits_blocks (h : (assemble s plans).orderedRecords = .ok records) (options : Options) :
    (assemble s plans).Emits ((assemble s plans).blocks options records) := by
  have hcode {block : Block} (hb : block ∈ (assemble s plans).codeBlocks options records) :=
    codeBlocks_define_nothing hb
  have henums := (assemble s plans).enumsByName_perm
  have hrecords := orderedRecords_perm h
  have hnames := (henums.map EnumClass.className).append (hrecords.map RecordClass.className)
  constructor
  case enums_once =>
    rw [blocks_eq, List.filterMap_append, List.filterMap_append, List.filterMap_map,
      List.filterMap_map, List.filterMap_eq_nil_iff.mpr fun _ hb => (hcode hb).1]
    simpa [Function.comp_def, Block.enum?] using henums
  case records_once =>
    rw [blocks_eq, List.filterMap_append, List.filterMap_append, List.filterMap_map,
      List.filterMap_map, List.filterMap_eq_nil_iff.mpr fun _ hb => (hcode hb).2.1]
    simpa [Function.comp_def, Block.record?] using hrecords
  case distinct =>
    rw [defined_blocks]
    exact hnames.nodup_iff.mpr (nodup_classNamesInUse s plans)
  case enums_first =>
    have hnone : ∀ y ∈ records.map Block.recordClass ++
        (assemble s plans).codeBlocks options records, y.enum? = none := by
      intro y hy
      rcases List.mem_append.mp hy with hy | hy
      · obtain ⟨r, _, rfl⟩ := List.mem_map.mp hy
        rfl
      · exact (hcode hy).1
    rw [blocks_eq]
    refine List.pairwise_append.mpr ⟨?_, ?_, ?_⟩
    · rw [List.pairwise_map]
      exact List.pairwise_of_forall fun _ _ hr => by cases hr
    · exact List.pairwise_of_forall_mem_list fun _ _ y hy _ => hnone y hy
    · exact fun _ _ y hy _ => hnone y hy
  case before_use =>
    have hd : Block.DefinedFrom [] ((assemble s plans).blocks options records) := by
      rw [blocks_eq]
      apply Block.DefinedFrom.append
      · apply Block.definedFrom_of_known
        intro block hb className hc
        obtain ⟨e, _, rfl⟩ := List.mem_map.mp hb
        cases hc
      · rw [List.nil_append, Block.defined_enumClasses]
        apply Block.DefinedFrom.append
        · exact (definedFrom_records h).mono (henums.map EnumClass.className).symm.subset
        · rw [Block.defined_recordClasses]
          apply Block.definedFrom_of_known
          intro block hb className hc
          exact hnames.symm.subset (uses_codeBlocks h hb hc)
    exact hd

theorem uses_blocks (h : (assemble s plans).orderedRecords = .ok records) {options : Options}
    {block : Block} (hb : block ∈ (assemble s plans).blocks options records) {className : Text}
    (hc : className ∈ block.uses) :
    className ∈ Block.defined ((assemble s plans).blocks options records) := by
  obtain ⟨front, back, he⟩ := List.append_of_mem hb
  have hd := (emits_blocks h options).before_use front block back he className hc
  rw [he, Block.defined_append]
  exact List.mem_append_left _ hd

theorem classNamesInUse_of_defined (h : (assemble s plans).orderedRecords = .ok records)
    {options : Options} {className : Text}
    (hc : className ∈ Block.defined ((assemble s plans).blocks options records)) :
    className ∈ (assemble s plans).classNamesInUse := by
  rw [defined_blocks] at hc
  exact (((assemble s plans).enumsByName_perm.map EnumClass.className).append
    ((orderedRecords_perm h).map RecordClass.className)).subset hc

theorem wrapper_mem_blocks {b : Binding} {options : Options} {code : WrapperCode} :
    .wrapper code ∈ b.blocks options records ↔ code ∈ b.wrapperCodes := by
  constructor
  · intro h
    rcases blocks_cases h with ⟨e, -, he⟩ | ⟨r, -, he⟩ | ⟨part, he⟩ | he | ⟨c, hc, he⟩ | he
    case inr.inr.inr.inr.inl =>
      cases he
      exact hc
    all_goals cases he
  · intro h
    exact List.mem_append_left _ (List.mem_append_right _ (List.mem_map_of_mem h))

end Blocks

theorem exists_generated {b : Binding} {options : Options} {g : Generated}
    (h : b.generate options = .ok g) : b.checkShadowing = .ok () ∧
      ∃ records, b.orderedRecords = .ok records ∧
        g = ⟨⟨options.sourceName, Imports.concat ((b.blocks options records).map Block.imports),
          b.blocks options records⟩, b.diagnostics ++ b.omissionNotices options⟩ := by
  unfold generate at h
  cases hc : b.checkShadowing with
  | error e =>
    rw [hc] at h
    cases h
  | ok u =>
    cases hr : b.orderedRecords with
    | error e =>
      rw [hc, hr] at h
      cases h
    | ok records =>
      rw [hc, hr] at h
      cases h
      exact ⟨rfl, records, rfl, rfl⟩

theorem generate_of_ordered {b : Binding} {records : List RecordClass}
    (hc : b.checkShadowing = .ok ()) (hr : b.orderedRecords = .ok records) (options : Options) :
    b.generate options = .ok ⟨⟨options.sourceName,
      Imports.concat ((b.blocks options records).map Block.imports), b.blocks options records⟩,
      b.diagnostics ++ b.omissionNotices options⟩ := by
  rw [generate, hc, hr]
  rfl

theorem generate_eq_ok {b : Binding} {options : Options} {g : Generated}
    (h : b.generate options = .ok g) : b.checkShadowing = .ok () ∧
      ∃ records, b.orderedRecords = .ok records ∧ g.source.blocks = b.blocks options records := by
  obtain ⟨hc, records, hr, rfl⟩ := exists_generated h
  exact ⟨hc, records, hr, rfl⟩

end Binding

namespace Module

theorem block_infix_render {m : Module} {block : Block} (h : block ∈ m.blocks) :
    trimNewlines block.render <:+: m.render := by
  have hb := List.infix_of_mem_flatten
    (List.mem_map_of_mem (f := fun block => ("\n\n\n" : Text) ++ trimNewlines block.render) h)
  exact ((List.suffix_append _ _).isInfix.trans hb).trans (List.infix_append _ _ _)

end Module

theorem generate_of_build {functions : Text} {shared : Option Text} {options : Options}
    {s : Schema} {b : Binding} (hs : Schema.parse functions shared = .ok s)
    (hb : Binding.build s options.strict = .ok b) :
    generate functions shared options = b.generate options := by
  rw [generate, hs]
  change Except.mapError _ (Binding.build s options.strict) >>= _ = _
  rw [hb]
  rfl

theorem generate_eq_ok {functions : Text} {shared : Option Text} {options : Options}
    {g : Generated} (h : generate functions shared options = .ok g) :
    ∃ s b, Schema.parse functions shared = .ok s ∧ Binding.build s options.strict = .ok b ∧
      b.generate options = .ok g := by
  cases hs : Schema.parse functions shared with
  | error e =>
    rw [generate, hs] at h
    cases h
  | ok s =>
    cases hb : Binding.build s options.strict with
    | error e =>
      rw [generate, hs] at h
      change Except.mapError _ (Binding.build s options.strict) >>= _ = _ at h
      rw [hb] at h
      cases h
    | ok b => exact ⟨s, b, rfl, hb, (generate_of_build hs hb).symm.trans h⟩

end Bindery

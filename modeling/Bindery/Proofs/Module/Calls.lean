import Bindery.Proofs.Binding.ProperNames
import Bindery.Proofs.Module.DefinitionOrder
import Bindery.Proofs.Module.Mentions

namespace Bindery

namespace Code

theorem calls_append (x y : List Mention) : calls (x ++ y) = calls x ++ calls y := by
  rw [calls, List.filter_append, List.map_append]
  rfl

theorem calls_flatMap {α : Type} (xs : List α) (f : α → List Mention) :
    calls (xs.flatMap f) = xs.flatMap fun x => calls (f x) := by
  induction xs with
  | nil => rfl
  | cons x xs ih => rw [List.flatMap_cons, calls_append, ih, List.flatMap_cons]

theorem calls_words (texts : List String) : calls (words texts) = [] := by
  induction texts with
  | nil => rfl
  | cons text texts ih => exact ih

theorem calls_mention (word : Text) : calls (mention word false) = [] := by
  unfold mention
  split <;> rfl

/-- The names that a text calls; a text that cannot be read counts for none. -/
def called (t : Text) : List Text :=
  ((read? t).map calls).getD []

theorem Reads.called_eq {t : Text} {mentions : List Mention} (h : Reads t mentions) :
    called t = calls mentions := by
  have hr : read? t = some mentions := h
  rw [called, hr]
  rfl

def supportCalls : List Text :=
  ["_decode_row", "_decode_value", "_encode_json"].map String.toList

def builtins : List Text :=
  ["dict", "isinstance", "zip"].map String.toList

end Code

open Code (Mention mention words call calls Reads)

theorem Descriptor.calls_mentions (d : Descriptor) : calls d.mentions = [] := by
  induction d with
  | plain => rfl
  | scalar converter => rfl
  | enum sqlName => rfl
  | record className => exact Code.calls_mention className
  | list item ih => exact ih

def PassedValue.calls : PassedValue → List Text
  | .plain _ => []
  | .json _ => ["_encode_json"]
  | .member _ | .members _ => ["isinstance"]

theorem PassedValue.calls_mentions (v : PassedValue) : Code.calls v.mentions = v.calls := by
  cases v with
  | plain identifier => exact Code.calls_mention identifier
  | json identifier =>
    rw [mentions, Code.calls_append, Code.calls_mention]
    rfl
  | member identifier =>
    simp only [mentions, Code.calls_append, Code.calls_mention, Code.calls_words]
    rfl
  | members identifier =>
    simp only [mentions, Code.calls_append, Code.calls_mention, Code.calls_words]
    rfl

def RowValue.calls : RowValue → List Text
  | .first => []
  | .decoded _ => ["_decode_value"]
  | .record _ _ => ["_decode_row"]
  | .dictionary => ["dict", "zip"]

theorem RowValue.calls_mentions (v : RowValue) : Code.calls v.mentions = v.calls := by
  cases v with
  | first => rfl
  | decoded descriptor =>
    simp only [mentions, Code.calls_append, descriptor.calls_mentions, Code.calls_words]
    rfl
  | record className keepEmpty =>
    simp only [mentions, Code.calls_append, Code.calls_mention, Code.calls_words]
    rfl
  | dictionary => rfl

def Fetch.calls : Fetch → List Text
  | .nothing => []
  | .one value | .all value => value.calls

theorem Fetch.calls_mentions (f : Fetch) : Code.calls f.mentions = f.calls := by
  have hcolumns (value : RowValue) : Code.calls (columnMentions value) = [] := by
    unfold columnMentions
    split
    · exact Code.calls_words _
    · rfl
  cases f with
  | nothing => rfl
  | one value =>
    simp only [mentions, Code.calls_append, Code.calls_words, hcolumns, value.calls_mentions,
      List.nil_append]
    rfl
  | all value =>
    simp only [mentions, Code.calls_append, Code.calls_words, hcolumns, value.calls_mentions,
      List.nil_append, List.append_nil]
    rfl

namespace WrapperCode

def calls (c : WrapperCode) : List Text :=
  c.params.flatMap (fun p => p.value.calls) ++ c.fetch.calls

theorem calls_mentions (c : WrapperCode) : Code.calls c.mentions = c.calls := by
  simp only [mentions, Code.calls_append, Code.calls_words, Code.calls_flatMap,
    PassedValue.calls_mentions, Fetch.calls_mentions, List.nil_append]
  rfl

theorem usesSupport_eq (c : WrapperCode) :
    c.usesSupport = c.calls.any Code.supportCalls.contains := by
  have hencode : ["_encode_json".toList].any Code.supportCalls.contains = true := by decide
  have hinstance : ["isinstance".toList].any Code.supportCalls.contains = false := by decide
  have hrow (v : RowValue) : v.calls.any Code.supportCalls.contains = v.usesSupport := by
    have hdecode : ["_decode_value".toList].any Code.supportCalls.contains = true := by
      decide
    have hbuild : ["_decode_row".toList].any Code.supportCalls.contains = true := by
      decide
    cases v with
    | first => rfl
    | decoded descriptor => exact hdecode
    | record className keepEmpty => exact hbuild
    | dictionary => decide
  have hfetch : c.fetch.calls.any Code.supportCalls.contains = c.fetch.usesSupport := by
    cases c.fetch with
    | nothing => rfl
    | one value => exact hrow value
    | all value => exact hrow value
  rw [usesSupport, calls, List.any_append, List.any_flatMap, hfetch, Bool.or_comm]
  refine congrArg (· || c.fetch.usesSupport) (congrArg c.params.any (funext fun p => ?_))
  cases p.value with
  | plain identifier => rfl
  | json identifier => exact hencode.symm
  | member identifier => exact hinstance.symm
  | members identifier => exact hinstance.symm

end WrapperCode

def RegistrationCall.function : RegistrationCall → Text
  | .enum _ _ => "_register_enum"
  | .record _ _ _ => "_register_record"

theorem RegistrationCall.calls_mentions (c : RegistrationCall) :
    Code.calls c.mentions = [c.function] := by
  cases c with
  | enum sqlName className =>
    unfold mentions
    rw [Code.calls_append, Code.calls_mention]
    rfl
  | record className kinds renames =>
    have hkinds : kinds.flatMap (fun entry => Code.calls entry.2.mentions) = [] :=
      List.flatMap_eq_nil_iff.mpr fun entry _ => entry.2.calls_mentions
    unfold mentions
    rw [Code.calls_append, Code.calls_append, Code.calls_mention, Code.calls_flatMap, hkinds]
    rfl

namespace Block

/-- The statements of a block that call functions: the body of a wrapper, or registrations. -/
def statements : Block → Text
  | .wrapper c => c.body
  | .registrations calls => calls.flatMap RegistrationCall.render
  | _ => []

def calls : Block → List Text
  | .wrapper c => c.calls
  | .registrations calls => calls.map RegistrationCall.function
  | _ => []

/-- Whether a block is a wrapper whose body calls a support function. -/
def callsSupport (block : Block) : Bool :=
  match block with
  | .wrapper c => (Code.called c.body).any Code.supportCalls.contains
  | _ => false

end Block

namespace Binding

variable {s : Schema} {plans : List (Plan × List Diagnostic)} {records : List RecordClass}

theorem reads_statements (h : (assemble s plans).orderedRecords = .ok records) (options : Options)
    {block : Block} (hb : block ∈ (assemble s plans).blocks options records) :
    ∃ mentions, Reads block.statements mentions ∧ Code.calls mentions = block.calls := by
  have hproper := namesProper_assemble s plans
  have hc : ∀ className ∈ block.uses, Name.IsProper className := fun className hn =>
    hproper.classes className (classNamesInUse_of_defined h (uses_blocks h hb hn))
  cases block with
  | wrapper code =>
    obtain ⟨w, hw, rfl⟩ := List.mem_map.mp (wrapper_mem_blocks.mp hb)
    refine ⟨_, ?_, WrapperCode.calls_mentions _⟩
    exact WrapperCode.reads_body_ofWrapper hc (hproper.parameters w hw)
  | registrations calls =>
    refine ⟨_, RegistrationCall.reads_all hc, ?_⟩
    simp only [Code.calls_flatMap, RegistrationCall.calls_mentions]
    exact List.flatMap_pure_eq_map _ _
  | _ => exact ⟨[], rfl, rfl⟩

/-- The number that is reported for omitted support code is read off the bodies of the wrappers. -/
theorem length_callsSupport (h : (assemble s plans).orderedRecords = .ok records)
    (options : Options) :
    (((assemble s plans).blocks options records).filter Block.callsSupport).length =
      (assemble s plans).supportUsers := by
  have hw : (assemble s plans).wrapperCodes.filter (Block.callsSupport ∘ Block.wrapper) =
      (assemble s plans).wrapperCodes.filter WrapperCode.usesSupport := by
    apply List.filter_congr
    intro c hc
    obtain ⟨mentions, hr, he⟩ := reads_statements h options (wrapper_mem_blocks.mpr hc)
    have hbody : Reads c.body mentions := hr
    have hcalls : Code.calls mentions = c.calls := he
    rw [Function.comp_apply, Block.callsSupport, c.usesSupport_eq, hbody.called_eq, hcalls]
  have henums : ((assemble s plans).enumsByName.map Block.enumClass).filter Block.callsSupport =
      [] := by
    apply List.filter_eq_nil_iff.mpr
    intro block hb
    obtain ⟨e, -, rfl⟩ := List.mem_map.mp hb
    exact Bool.false_ne_true
  have hrecords : (records.map Block.recordClass).filter Block.callsSupport = [] := by
    apply List.filter_eq_nil_iff.mpr
    intro block hb
    obtain ⟨r, -, rfl⟩ := List.mem_map.mp hb
    exact Bool.false_ne_true
  have hsupport : (if options.omitSupport then [] else
      (assemble s plans).supportBlocks records).filter Block.callsSupport = [] := by
    apply List.filter_eq_nil_iff.mpr
    intro block hb
    split at hb
    · cases hb
    · rcases supportBlocks_cases hb with ⟨part, rfl⟩ | rfl
      · exact Bool.false_ne_true
      · exact Bool.false_ne_true
  have hmanifest (names : List Text) : [Block.manifest names].filter Block.callsSupport = [] := rfl
  rw [blocks, List.filter_append, List.filter_append, List.filter_append, List.filter_append,
    henums, hrecords, hsupport, hmanifest, List.filter_map, hw, List.nil_append, List.nil_append,
    List.nil_append, List.append_nil, List.length_map, supportUsers]

end Binding

end Bindery

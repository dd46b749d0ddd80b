import Bindery.Catalog.Basic
import Bindery.Proofs.Catalog.Registration

namespace Bindery

section Gather

variable {β : Type}

def addPart (same : β → β → Bool) (parts : List β) (p : β) : List β :=
  if parts.any (same · p) then parts else parts ++ [p]

/-- Adds the parts that are not there yet, one after another. -/
def gather (same : β → β → Bool) (old new : List β) : List β :=
  new.foldl (addPart same) old

variable {same : β → β → Bool}

theorem prefix_addPart (parts : List β) (p : β) : parts <+: addPart same parts p := by
  unfold addPart
  split
  · exact List.prefix_refl parts
  · exact List.prefix_append parts [p]

theorem addPart_of_present {parts : List β} {p : β} (h : ∃ q ∈ parts, same q p = true) :
    addPart same parts p = parts := by
  rw [addPart, if_pos (List.any_eq_true.mpr h)]

theorem addPart_of_new {parts : List β} {p : β} (h : ∀ q ∈ parts, same q p = false) :
    addPart same parts p = parts ++ [p] := by
  rw [addPart, if_neg]
  rw [Bool.not_eq_true, List.any_eq_false]
  simpa using h

theorem gather_append_cons (old front back : List β) (p : β) :
    gather same old (front ++ p :: back) =
      gather same (addPart same (gather same old front) p) back :=
  List.foldl_append

theorem prefix_gather (old new : List β) : old <+: gather same old new := by
  induction new generalizing old with
  | nil => exact List.prefix_refl old
  | cons p new ih => exact (prefix_addPart old p).trans (ih _)

theorem mem_of_mem_gather {old new : List β} {q : β} (h : q ∈ gather same old new) :
    q ∈ old ∨ q ∈ new := by
  induction new generalizing old with
  | nil => exact .inl h
  | cons p new ih =>
    rcases ih h with hq | hq
    · unfold addPart at hq
      split at hq
      · exact .inl hq
      · rcases List.mem_append.mp hq with hq | hq
        · exact .inl hq
        · exact .inr (by simp [List.mem_singleton.mp hq])
    · exact .inr (List.mem_cons_of_mem p hq)

theorem exists_same_of_mem (hr : ∀ p, same p p = true) (old : List β) {new : List β} {p : β}
    (h : p ∈ new) : ∃ q ∈ gather same old new, same q p = true := by
  obtain ⟨front, back, rfl⟩ := List.append_of_mem h
  rw [gather_append_cons]
  have hp : ∃ q ∈ addPart same (gather same old front) p, same q p = true := by
    unfold addPart
    split
    · rename_i ha
      exact List.any_eq_true.mp ha
    · exact ⟨p, by simp, hr p⟩
  obtain ⟨q, hq, hs⟩ := hp
  exact ⟨q, (prefix_gather _ back).subset hq, hs⟩

theorem gather_of_present {old new : List β} (h : ∀ p ∈ new, ∃ q ∈ old, same q p = true) :
    gather same old new = old := by
  induction new with
  | nil => rfl
  | cons p new ih =>
    change gather same (addPart same old p) new = old
    rw [addPart_of_present (h p (by simp))]
    exact ih fun q hq => h q (List.mem_cons_of_mem p hq)

theorem find?_gather {old front : List β} {p : β} (hr : same p p = true)
    (ho : ∀ q ∈ old, same q p = false) (hf : ∀ q ∈ front, same q p = false) (back : List β) :
    (gather same old (front ++ p :: back)).find? (same · p) = some p := by
  have hn : ∀ q ∈ gather same old front, same q p = false := by
    intro q hq
    rcases mem_of_mem_gather hq with hq | hq
    · exact ho q hq
    · exact hf q hq
  have hp : (gather same old front ++ [p]).find? (same · p) = some p := by
    rw [List.find?_append, List.find?_eq_none.mpr (by simpa using hn)]
    simp [hr]
  rw [gather_append_cons, addPart_of_new hn]
  exact (prefix_gather _ back).find?_eq_some hp

end Gather

/-- Entries are parts under a name, and merging gathers the parts. -/
structure Gathers {α β : Type} [Entry α] (parts : α → List β) (same : β → β → Bool) : Prop where
  same_refl : ∀ p, same p p = true
  parts_merge : ∀ old new, parts (Entry.merge old new) = gather same (parts old) (parts new)
  merge_eq : ∀ old new, parts (Entry.merge old new) = parts old → Entry.merge old new = old

/-- Columns whose names are equal up to the case of ASCII letters. -/
def Column.sameName (c d : Column) : Bool :=
  Text.sameIgnoringCase c.name d.name

theorem Column.sameName_refl (c : Column) : c.sameName c = true := by
  simp [sameName, Text.sameIgnoringCase]

theorem mergeColumns_eq (old new : List Column) :
    mergeColumns old new = gather Column.sameName old new := rfl

theorem mergeLabels_eq (old new : List Text) :
    mergeLabels old new = gather (fun k l => k == l) old new := by
  have hs : (fun (labels : List Text) l => if labels.contains l then labels else labels ++ [l]) =
      addPart fun k l => k == l := by
    funext labels l
    simp [addPart, Bool.beq_comm]
  rw [mergeLabels, hs, gather]

theorem gathers_columns : Gathers Table.columns Column.sameName where
  same_refl := Column.sameName_refl
  parts_merge old new := mergeColumns_eq old.columns new.columns
  merge_eq old _ h := congrArg (Table.mk old.name) h

theorem gathers_fields : Gathers Composite.fields Column.sameName where
  same_refl := Column.sameName_refl
  parts_merge old new := mergeColumns_eq old.fields new.fields
  merge_eq old _ h := congrArg (Composite.mk old.name) h

theorem gathers_labels : Gathers EnumType.labels (fun k l => k == l) where
  same_refl := by simp
  parts_merge old new := mergeLabels_eq old.labels new.labels
  merge_eq old _ h := congrArg (EnumType.mk old.name) h

namespace SymbolTable

variable {α β : Type} [Entry α] {parts : α → List β} {same : β → β → Bool}

theorem Registers.receives {table : SymbolTable α} {e : α} {result : SymbolTable α × Registration}
    (h : table.Registers e result) (ht : table.Consistent) :
    (∃ old, table.entries[result.2.index]? = some old ∧
      result.1.entries[result.2.index]? = some (Entry.merge old e)) ∨
    (table.entries[result.2.index]? = none ∧ result.1.entries[result.2.index]? = some e) := by
  have ha {i : Nat} {k : Text} (hk : table.find? k = some i) :
      ∃ old, table.entries[i]? = some old ∧
        (table.absorb i e).entries[i]? = some (Entry.merge old e) := by
    have ho := List.getElem?_eq_getElem (ht.valid hk)
    refine ⟨_, ho, ?_⟩
    rw [absorb, List.getElem?_modify_eq, ho]
    rfl
  cases h with
  | found hk => exact .inl (ha hk)
  | adopted _ _ hb _ =>
    obtain ⟨old, ho, hn⟩ := ha hb
    exact .inl ⟨old, ho, by rw [entries_bind]; exact hn⟩
  | fresh _ hi he _ =>
    rw [hi, he]
    exact .inr ⟨List.getElem?_eq_none (Nat.le_refl _), by simp⟩

theorem Registers.grows (hg : Gathers parts same) {table : SymbolTable α} {e : α}
    {result : SymbolTable α × Registration} (h : table.Registers e result) {i : Nat} {old : α}
    (ho : table.entries[i]? = some old) :
    ∃ new, result.1.entries[i]? = some new ∧ parts old <+: parts new := by
  have ha (j : Nat) :
      ∃ new, (table.absorb j e).entries[i]? = some new ∧ parts old <+: parts new := by
    rw [absorb, List.getElem?_modify, ho]
    refine ⟨_, rfl, ?_⟩
    split
    · rw [hg.parts_merge]
      exact prefix_gather _ _
    · exact List.prefix_refl _
  cases h with
  | found => exact ha _
  | adopted =>
    rw [entries_bind]
    exact ha _
  | fresh _ _ he _ =>
    obtain ⟨hl, _⟩ := List.getElem?_eq_some_iff.mp ho
    refine ⟨old, ?_, List.prefix_refl _⟩
    rw [he, List.getElem?_append_left hl, ho]

theorem registerAll_grows (hg : Gathers parts same) {table : SymbolTable α} {i : Nat} {old : α}
    (ho : table.entries[i]? = some old) (history : List α) :
    ∃ new, (table.registerAll history).entries[i]? = some new ∧ parts old <+: parts new := by
  induction history generalizing table old with
  | nil => exact ⟨old, ho, List.prefix_refl _⟩
  | cons e history ih =>
    obtain ⟨middle, hm, hp⟩ := (table.register_spec e).grows hg ho
    obtain ⟨new, hn, hq⟩ := ih hm
    exact ⟨new, hn, hp.trans hq⟩

theorem Registers.present (hg : Gathers parts same) {table : SymbolTable α} {e : α}
    {result : SymbolTable α × Registration} (h : table.Registers e result) (ht : table.Consistent) :
    ∃ entry, result.1.entries[result.2.index]? = some entry ∧
      ∀ p ∈ parts e, ∃ q ∈ parts entry, same q p = true := by
  rcases h.receives ht with ⟨old, _, hn⟩ | ⟨_, hn⟩
  · refine ⟨_, hn, ?_⟩
    intro p hp
    rw [hg.parts_merge]
    exact exists_same_of_mem hg.same_refl _ hp
  · exact ⟨e, hn, fun p hp => ⟨p, hp, hg.same_refl p⟩⟩

theorem Registers.first (hg : Gathers parts same) {table : SymbolTable α} {e : α}
    {result : SymbolTable α × Registration} (h : table.Registers e result) (ht : table.Consistent)
    {front back : List β} {p : β} (he : parts e = front ++ p :: back)
    (hf : ∀ q ∈ front, same q p = false)
    (ho : ∀ old, table.entries[result.2.index]? = some old → ∀ q ∈ parts old, same q p = false) :
    ∃ entry, result.1.entries[result.2.index]? = some entry ∧
      (parts entry).find? (same · p) = some p := by
  rcases h.receives ht with ⟨old, hi, hn⟩ | ⟨_, hn⟩
  · refine ⟨_, hn, ?_⟩
    rw [hg.parts_merge, he]
    exact find?_gather (hg.same_refl p) (ho old hi) hf back
  · refine ⟨e, hn, ?_⟩
    rw [he, List.find?_append, List.find?_eq_none.mpr (by simpa using hf)]
    simp [hg.same_refl]

theorem register_of_absorbed {table : SymbolTable α} {e entry : α} {i : Nat}
    (hk : table.find? (Entry.key e) = some i) (hi : table.entries[i]? = some entry)
    (hm : Entry.merge entry e = entry) : (table.register e).1 = table := by
  have hr : table.repeated? (Entry.key e) = some i := by rw [repeated?, hk]
  have ha : table.absorb i e = table := by
    have he : table.entries.modify i (Entry.merge · e) = table.entries := by
      apply List.ext_getElem?
      intro j
      by_cases hj : i = j
      · subst hj
        rw [List.getElem?_modify_eq, hi]
        exact congrArg some hm
      · rw [List.getElem?_modify_ne _ _ hj]
    rw [absorb, he]
  rw [register_of_repeated hr, ha, bind_of_bound hk]

/-- A table with all parts of a declaration in the entry of its key. -/
def Holds (parts : α → List β) (same : β → β → Bool) (table : SymbolTable α) (e : α) : Prop :=
  ∃ i entry, table.find? (Entry.key e) = some i ∧ table.entries[i]? = some entry ∧
    ∀ p ∈ parts e, ∃ q ∈ parts entry, same q p = true

theorem Holds.register_eq (hg : Gathers parts same) {table : SymbolTable α} {e : α}
    (h : table.Holds parts same e) : (table.register e).1 = table := by
  obtain ⟨i, entry, hk, hi, hp⟩ := h
  apply register_of_absorbed hk hi
  apply hg.merge_eq
  rw [hg.parts_merge, gather_of_present hp]

theorem registerAll_of_holds (hg : Gathers parts same) {table : SymbolTable α} {history : List α}
    (h : ∀ e ∈ history, table.Holds parts same e) : table.registerAll history = table := by
  induction history with
  | nil => rfl
  | cons e history ih =>
    rw [registerAll_cons, (h e (by simp)).register_eq hg]
    exact ih fun d hd => h d (List.mem_cons_of_mem e hd)

theorem RegisteredTo.present (hg : Gathers parts same) {history : List α} {e : α} {i : Nat}
    (h : RegisteredTo history e i) :
    ∃ entry, (registerAll {} history).entries[i]? = some entry ∧
      ∀ p ∈ parts e, ∃ q ∈ parts entry, same q p = true := by
  obtain ⟨before, after, rfl, rfl⟩ := h
  obtain ⟨entry, he, hp⟩ :=
    (register_spec _ e).present hg (consistent_empty.registerAll before)
  obtain ⟨last, hl, hq⟩ := registerAll_grows hg he after
  rw [registerAll_append, registerAll_cons]
  refine ⟨last, hl, ?_⟩
  intro p hpe
  obtain ⟨q, hqe, hs⟩ := hp p hpe
  exact ⟨q, hq.subset hqe, hs⟩

theorem exists_get?_of_mem (hg : Gathers parts same) {history : List α} {e : α}
    (he : e ∈ history) :
    ∃ entry, (registerAll {} history).get? (Entry.name e) = some entry ∧
      ∀ p ∈ parts e, ∃ q ∈ parts entry, same q p = true := by
  obtain ⟨before, after, hh⟩ := List.append_of_mem he
  have hr : RegisteredTo history e _ := ⟨before, after, hh, rfl⟩
  obtain ⟨entry, hi, hp⟩ := hr.present hg
  have hf := hr.finds
  rw [Entry.key] at hf
  refine ⟨entry, ?_, hp⟩
  rw [get?, indexOf?, hf]
  exact hi

/-- Registration only ever adds parts, and each part only once. -/
structure KeepsParts (parts : α → List β) (same : β → β → Bool) : Prop where
  grows : ∀ (table : SymbolTable α) (e : α) (i : Nat) (old : α), table.entries[i]? = some old →
    ∃ new, (table.register e).1.entries[i]? = some new ∧ parts old <+: parts new
  present : ∀ (history : List α) (e : α) (i : Nat), RegisteredTo history e i →
    ∃ entry, (registerAll {} history).entries[i]? = some entry ∧
      ∀ p ∈ parts e, ∃ q ∈ parts entry, same q p = true
  /-- A part that no earlier part of the entry is the same as stays as it was declared. -/
  first : ∀ (before : List α) (e : α) (after : List α) (i : Nat) (front : List β) (p : β)
    (back : List β), i = ((registerAll {} before).register e).2.index →
    parts e = front ++ p :: back → (∀ q ∈ front, same q p = false) →
    (∀ old, (registerAll {} before).entries[i]? = some old → ∀ q ∈ parts old, same q p = false) →
    ∃ entry, (registerAll {} (before ++ e :: after)).entries[i]? = some entry ∧
      (parts entry).find? (same · p) = some p
  again : ∀ history : List α,
    (registerAll {} history).registerAll history = registerAll {} history

theorem keepsParts (hg : Gathers parts same) : KeepsParts parts same where
  grows table e _ _ ho := (table.register_spec e).grows hg ho
  present _ _ _ h := h.present hg
  first := by
    rintro before e after i front p back rfl he hf ho
    obtain ⟨entry, hi, hp⟩ :=
      (register_spec _ e).first hg (consistent_empty.registerAll before) he hf ho
    obtain ⟨last, hl, hq⟩ := registerAll_grows hg hi after
    rw [registerAll_append, registerAll_cons]
    exact ⟨last, hl, hq.find?_eq_some hp⟩
  again := by
    intro history
    -- The table already holds what each declaration brings, so no step changes it.
    apply registerAll_of_holds hg
    intro e he
    obtain ⟨before, after, hh⟩ := List.append_of_mem he
    have hr : RegisteredTo history e _ := ⟨before, after, hh, rfl⟩
    obtain ⟨entry, hi, hp⟩ := hr.present hg
    exact ⟨_, entry, hr.finds, hi, hp⟩

/--
Tables and composite types keep their columns, which are told apart by name up to the case of ASCII
letters, and enum types keep their labels: a registration adds parts behind those that are there,
every declared part is found in the entry its declaration went to, as it was declared if it was the
first of its name there, and a history registered again leaves the table as it is.
-/
theorem register_keeps_parts :
    KeepsParts Table.columns Column.sameName ∧ KeepsParts Composite.fields Column.sameName ∧
      KeepsParts EnumType.labels (fun k l => k == l) :=
  ⟨keepsParts gathers_columns, keepsParts gathers_fields, keepsParts gathers_labels⟩

end SymbolTable

end Bindery

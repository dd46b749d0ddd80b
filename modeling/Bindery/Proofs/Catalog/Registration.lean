import Bindery.Catalog.SymbolTable
import Bindery.Proofs.Text.Basic

namespace Bindery

namespace Name

theorem dot_not_mem_bare (name : Text) : '.' ∉ bare name := by
  rw [bare]
  split
  · rename_i hs
    exact (Text.splitLast?_sound hs).2
  · rename_i hs
    exact Text.splitLast?_eq_none_iff.mp hs

theorem bare_of_not_mem {name : Text} (h : '.' ∉ name) : bare name = name := by
  rw [bare, Text.splitLast?_eq_none_iff.mpr h]

theorem bare_bare (name : Text) : bare (bare name) = bare name :=
  bare_of_not_mem (dot_not_mem_bare name)

theorem eq_bare_iff {name : Text} : name = bare name ↔ '.' ∉ name := by
  constructor
  · intro h
    rw [h]
    exact dot_not_mem_bare name
  · intro h
    exact (bare_of_not_mem h).symm

end Name

def Registration.index : Registration → Nat
  | .added index | .merged index | .ambiguous index _ => index

def Entry.key {α : Type} [Entry α] (e : α) : Text :=
  normalizeKey (Entry.name e)

namespace SymbolTable

open Name (bare)

variable {α : Type}

theorem find?_bind (table : SymbolTable α) (key : Text) (i : Nat) (k : Text) :
    (table.bind key i).find? k = (table.find? k).or (if k = key then some i else none) := by
  unfold bind
  split
  · rename_i hb
    by_cases hk : k = key
    · obtain ⟨j, hj⟩ := Option.isSome_iff_exists.mp hb
      simp [hk, hj]
    · simp [hk]
  · by_cases hk : k = key
    · simp [find?, List.lookup_append, hk]
    · have hb : (k == key) = false := beq_false_of_ne hk
      simp [find?, List.lookup_append, List.lookup_cons, hk, hb]

@[simp] theorem entries_bind (table : SymbolTable α) (key : Text) (i : Nat) :
    (table.bind key i).entries = table.entries := by
  unfold bind
  split <;> rfl

theorem bind_of_bound {table : SymbolTable α} {key : Text} {i : Nat} (h : table.find? key = some i)
    (j : Nat) : table.bind key j = table := by
  simp [bind, h]

theorem not_qualified {table : SymbolTable α} {i : Nat} (h : table.isQualified i = false)
    {k : Text} (hk : table.find? k = some i) : '.' ∉ k := by
  obtain ⟨front, back, he, _⟩ := List.lookup_eq_some_iff.mp hk
  rw [isQualified, List.any_eq_false] at h
  simpa using h (k, i) (by simp [he])

variable [Entry α]

def absorb (table : SymbolTable α) (i : Nat) (e : α) : SymbolTable α :=
  { table with entries := table.entries.modify i (Entry.merge · e) }

/--
What comes of a registration. Where the key is bound, its entry absorbs the declaration; an entry
that only the bare key denotes absorbs it too and is bound to the key; else an entry is added, and
the key and the bare key denote it unless they denote another one.
-/
inductive Registers (table : SymbolTable α) (e : α) : SymbolTable α × Registration → Prop
  | found {i : Nat} : table.find? (Entry.key e) = some i →
      Registers table e (table.absorb i e, .merged i)
  | adopted {i : Nat} : table.find? (Entry.key e) = none → '.' ∈ Entry.key e →
      table.find? (bare (Entry.key e)) = some i → (∀ k, table.find? k = some i → '.' ∉ k) →
      Registers table e ((table.absorb i e).bind (Entry.key e) i, .merged i)
  | fresh {result : SymbolTable α × Registration} : table.find? (Entry.key e) = none →
      result.2.index = table.entries.length → result.1.entries = table.entries ++ [e] →
      (∀ k, result.1.find? k = (table.find? k).or
        (if k = Entry.key e ∨ k = bare (Entry.key e) then some table.entries.length else none)) →
      Registers table e result

theorem register_of_repeated {table : SymbolTable α} {e : α} {i : Nat}
    (h : table.repeated? (Entry.key e) = some i) :
    table.register e = ((table.absorb i e).bind (Entry.key e) i, .merged i) := by
  rw [Entry.key] at h
  simp only [register, h]
  rfl

/-- An entry is added where no key tells that the declaration is repeated. -/
theorem register_fresh {table : SymbolTable α} {e : α} (hk : table.find? (Entry.key e) = none)
    (hr : table.repeated? (Entry.key e) = none) : table.Registers e (table.register e) := by
  have hf (k : Text) :
      find? { table with entries := table.entries ++ [e] } k = table.find? k := rfl
  have ha (k : Text) : find? ({ table with entries := table.entries ++ [e] }.bind (Entry.key e)
      table.entries.length) k =
        (table.find? k).or (if k = Entry.key e then some table.entries.length else none) := by
    rw [find?_bind, hf]
  rw [Entry.key] at hr
  simp only [register, hr]
  rw [← Entry.key] at hr ⊢
  split
  · rename_i hb
    refine .fresh hk rfl (entries_bind ..) fun k => ?_
    simp only [ha, ← hb, or_self]
  · rename_i hb
    split
    · rename_i hs
      refine .fresh hk rfl (entries_bind ..) fun k => ?_
      rw [ha]
      by_cases hkb : k = bare (Entry.key e)
      · obtain ⟨j, hj⟩ := Option.isSome_iff_exists.mp hs
        rw [ha, if_neg (Ne.symm hb), Option.or_none] at hj
        simp [hkb, hj]
      · simp [hkb]
    · refine .fresh hk rfl (by simp) fun k => ?_
      rw [find?_bind, ha, Option.or_assoc]
      by_cases hke : k = Entry.key e <;> simp [hke]

theorem register_spec (table : SymbolTable α) (e : α) : table.Registers e (table.register e) := by
  cases hk : table.find? (Entry.key e) with
  | some i =>
    have hr : table.repeated? (Entry.key e) = some i := by rw [repeated?, hk]
    have hb : (table.absorb i e).find? (Entry.key e) = some i := hk
    rw [register_of_repeated hr, bind_of_bound hb]
    exact .found hk
  | none =>
    cases hr : table.repeated? (Entry.key e) with
    | none => exact register_fresh hk hr
    | some i =>
      rw [register_of_repeated hr]
      simp only [repeated?, hk] at hr
      split at hr
      · cases hr
      · rename_i hb
        obtain ⟨hi, hq⟩ := Option.filter_eq_some_iff.mp hr
        refine .adopted hk ?_ hi fun k hki => not_qualified (by simpa using hq) hki
        rw [← Decidable.not_not (p := '.' ∈ Entry.key e), ← Name.eq_bare_iff]
        exact hb

/--
What holds of a table after every history: a key denotes an entry, an entry is denoted by the key of
its own name and by no two keys with a schema or without one, and a key with a schema is bound
together with its bare key.
-/
structure Consistent (table : SymbolTable α) : Prop where
  valid : ∀ {k : Text} {i : Nat}, table.find? k = some i → i < table.entries.length
  named : ∀ {i : Nat} {e : α}, table.entries[i]? = some e → table.find? (Entry.key e) = some i
  one_key : ∀ {k l : Text} {i : Nat}, table.find? k = some i → table.find? l = some i →
    ('.' ∈ k ↔ '.' ∈ l) → k = l
  bare_bound : ∀ {k : Text} {i : Nat}, table.find? k = some i → ∃ j, table.find? (bare k) = some j

theorem consistent_empty : Consistent ({} : SymbolTable α) where
  valid h := by cases h
  named h := by cases h
  one_key h := by cases h
  bare_bound h := by cases h

theorem Consistent.nodup_keys {table : SymbolTable α} (h : table.Consistent) :
    (table.entries.map Entry.key).Nodup := by
  apply List.pairwise_map.mpr
  apply List.pairwise_iff_getElem.mpr
  intro i j hi hj hij he
  have hfirst := h.named (List.getElem?_eq_getElem hi)
  have hsecond := h.named (List.getElem?_eq_getElem hj)
  rw [he, hsecond, Option.some.injEq] at hfirst
  omega

theorem Registers.find?_eq {table : SymbolTable α} {e : α}
    {result : SymbolTable α × Registration} (h : table.Registers e result) (ht : table.Consistent)
    (k : Text) : result.1.find? k = (table.find? k).or
      (if k = Entry.key e ∨ k = bare (Entry.key e) then some result.2.index else none) := by
  cases h with
  | @found i hk =>
    obtain ⟨j, hj⟩ := ht.bare_bound hk
    change table.find? k = _
    split
    · rename_i hb
      rcases hb with rfl | rfl
      · simp [hk]
      · simp [hj]
    · simp
  | @adopted i hk hq hb _ =>
    rw [find?_bind]
    change (table.find? k).or _ = _
    by_cases hkb : k = bare (Entry.key e)
    · simp [hkb, hb]
    · simp [hkb, Registration.index]
  | fresh hk hi _ hf => rw [hf, hi]

theorem Registers.keeps {table : SymbolTable α} {e : α} {result : SymbolTable α × Registration}
    (h : table.Registers e result) {k : Text} {i : Nat} (hk : table.find? k = some i) :
    result.1.find? k = some i := by
  cases h with
  | found => exact hk
  | adopted =>
    rw [find?_bind]
    change (table.find? k).or _ = _
    simp [hk]
  | fresh _ _ _ hf => simp [hf, hk]

theorem Registers.finds {table : SymbolTable α} {e : α} {result : SymbolTable α × Registration}
    (h : table.Registers e result) : result.1.find? (Entry.key e) = some result.2.index := by
  cases h with
  | found hk => exact hk
  | adopted hk =>
    rw [find?_bind]
    change (table.find? (Entry.key e)).or _ = _
    simp [hk, Registration.index]
  | fresh hk hi _ hf => simp [hf, hk, hi]

theorem Registers.entries {table : SymbolTable α} {e : α}
    {result : SymbolTable α × Registration} (h : table.Registers e result) {i : Nat} {d : α}
    (hd : result.1.entries[i]? = some d) :
    (∃ old, table.entries[i]? = some old ∧ Entry.name d = Entry.name old) ∨
      (d = e ∧ i = result.2.index) := by
  have ha {j : Nat} (hj : (table.entries.modify j (Entry.merge · e))[i]? = some d) :
      ∃ old, table.entries[i]? = some old ∧ Entry.name d = Entry.name old := by
    rw [List.getElem?_modify] at hj
    obtain ⟨old, ho, rfl⟩ := Option.map_eq_some_iff.mp hj
    refine ⟨old, ho, ?_⟩
    split
    · exact Entry.name_merge old e
    · rfl
  cases h with
  | found => exact .inl (ha hd)
  | adopted =>
    rw [entries_bind] at hd
    exact .inl (ha hd)
  | fresh _ hi he _ =>
    rw [he, List.getElem?_append] at hd
    split at hd
    · exact .inl ⟨d, hd, rfl⟩
    · rename_i hl
      obtain ⟨hz, rfl⟩ := List.getElem?_eq_some_iff.mp hd
      simp only [List.length_singleton] at hz
      exact .inr ⟨by simp, by omega⟩

theorem Registers.length_le {table : SymbolTable α} {e : α}
    {result : SymbolTable α × Registration} (h : table.Registers e result) :
    table.entries.length ≤ result.1.entries.length := by
  cases h with
  | found => simp [absorb]
  | adopted => simp [absorb]
  | fresh _ _ he _ => simp [he]

theorem Registers.index_lt {table : SymbolTable α} {e : α} {result : SymbolTable α × Registration}
    (h : table.Registers e result) (ht : table.Consistent) :
    result.2.index < result.1.entries.length := by
  cases h with
  | found hk => simpa [absorb, Registration.index] using ht.valid hk
  | adopted _ _ hb _ => simpa [absorb, Registration.index] using ht.valid hb
  | fresh _ hi he _ => simp [he, hi]

theorem Registers.one_key {table : SymbolTable α} {e : α}
    {result : SymbolTable α × Registration} (h : table.Registers e result) (ht : table.Consistent)
    {k l : Text} (hk : table.find? k = some result.2.index)
    (hl : table.find? l = none) (he : l = Entry.key e ∨ l = bare (Entry.key e))
    (hs : '.' ∈ k ↔ '.' ∈ l) : k = l := by
  cases h with
  | found hf =>
    obtain ⟨j, hj⟩ := ht.bare_bound hf
    rcases he with rfl | rfl
    · rw [hf] at hl
      cases hl
    · rw [hj] at hl
      cases hl
  | adopted _ hq hb hn =>
    rcases he with rfl | rfl
    · exact absurd (hs.mpr hq) (hn k hk)
    · rw [hb] at hl
      cases hl
  | fresh _ hi _ _ =>
    have := ht.valid hk
    omega

theorem Registers.consistent {table : SymbolTable α} {e : α}
    {result : SymbolTable α × Registration} (h : table.Registers e result)
    (ht : table.Consistent) : result.1.Consistent := by
  have hf {k : Text} {i : Nat} (hk : result.1.find? k = some i) : table.find? k = some i ∨
      (table.find? k = none ∧ (k = Entry.key e ∨ k = bare (Entry.key e)) ∧ i = result.2.index) := by
    rw [h.find?_eq ht, Option.or_eq_some_iff] at hk
    rcases hk with hk | ⟨hn, hk⟩
    · exact .inl hk
    · split at hk
      · rename_i hb
        cases hk
        exact .inr ⟨hn, hb, rfl⟩
      · cases hk
  constructor
  case valid =>
    intro k i hk
    rcases hf hk with hk | ⟨_, _, rfl⟩
    · exact Nat.lt_of_lt_of_le (ht.valid hk) h.length_le
    · exact h.index_lt ht
  case named =>
    intro i d hd
    rcases h.entries hd with ⟨old, ho, hn⟩ | ⟨rfl, rfl⟩
    · rw [Entry.key, hn]
      exact h.keeps (ht.named ho)
    · exact h.finds
  case one_key =>
    intro k l i hk hl hs
    rcases hf hk with hk | ⟨hkn, hke, rfl⟩
    · rcases hf hl with hl | ⟨hln, hle, rfl⟩
      · exact ht.one_key hk hl hs
      · exact h.one_key ht hk hln hle hs
    · rcases hf hl with hl | ⟨hln, hle, _⟩
      · exact (h.one_key ht hl hkn hke hs.symm).symm
      · have hb : '.' ∉ bare (Entry.key e) := Name.dot_not_mem_bare _
        rcases hke with rfl | rfl
        · rcases hle with rfl | rfl
          · rfl
          · exact Name.eq_bare_iff.mpr fun hd => hb (hs.mp hd)
        · rcases hle with rfl | rfl
          · exact (Name.eq_bare_iff.mpr fun hd => hb (hs.mpr hd)).symm
          · rfl
  case bare_bound =>
    intro k i hk
    rcases hf hk with hk | ⟨_, hb, rfl⟩
    · obtain ⟨j, hj⟩ := ht.bare_bound hk
      exact ⟨j, h.keeps hj⟩
    · have hkb : bare k = bare (Entry.key e) := by
        rcases hb with rfl | rfl
        · rfl
        · exact Name.bare_bare _
      rw [hkb, h.find?_eq ht]
      cases table.find? (bare (Entry.key e)) with
      | none => exact ⟨result.2.index, by simp⟩
      | some j => exact ⟨j, rfl⟩

def registerAll (table : SymbolTable α) (history : List α) : SymbolTable α :=
  history.foldl (fun table e => (table.register e).1) table

theorem registerAll_cons (table : SymbolTable α) (e : α) (history : List α) :
    table.registerAll (e :: history) = (table.register e).1.registerAll history := rfl

theorem registerAll_append (table : SymbolTable α) (before after : List α) :
    table.registerAll (before ++ after) = (table.registerAll before).registerAll after :=
  List.foldl_append

theorem Consistent.registerAll {table : SymbolTable α} (h : table.Consistent)
    (history : List α) : (table.registerAll history).Consistent := by
  induction history generalizing table with
  | nil => exact h
  | cons e history ih => exact ih ((table.register_spec e).consistent h)

theorem registerAll_keeps {table : SymbolTable α} {k : Text} {i : Nat}
    (h : table.find? k = some i) (history : List α) :
    (table.registerAll history).find? k = some i := by
  induction history generalizing table with
  | nil => exact h
  | cons e history ih => exact ih ((table.register_spec e).keeps h)

/-- In a history that begins with no entries, the declaration went to the entry `i`. -/
def RegisteredTo (history : List α) (e : α) (i : Nat) : Prop :=
  ∃ before after, history = before ++ e :: after ∧
    i = ((registerAll {} before).register e).2.index

/-- After a history the key of each declaration denotes the entry that the declaration went to. -/
theorem RegisteredTo.finds {history : List α} {e : α} {i : Nat}
    (h : RegisteredTo history e i) : (registerAll {} history).find? (Entry.key e) = some i := by
  obtain ⟨before, after, rfl, rfl⟩ := h
  rw [registerAll_append, registerAll_cons]
  exact registerAll_keeps (register_spec _ e).finds after

theorem exists_declaration {table : SymbolTable α} (ht : table.Consistent) {history : List α}
    {k : Text} {i : Nat} (h : (table.registerAll history).find? k = some i) :
    table.find? k = some i ∨ ∃ e ∈ history, k = Entry.key e ∨ k = bare (Entry.key e) := by
  induction history generalizing table with
  | nil => exact .inl h
  | cons e history ih =>
    have hs := table.register_spec e
    rcases ih (hs.consistent ht) h with hk | ⟨d, hd, hk⟩
    · rw [hs.find?_eq ht, Option.or_eq_some_iff] at hk
      rcases hk with hk | ⟨_, hk⟩
      · exact .inl hk
      · split at hk
        · rename_i hb
          exact .inr ⟨e, by simp, hb⟩
        · cases hk
    · exact .inr ⟨d, by simp [hd], hk⟩

theorem registerAll_first {before : List α} {e : α}
    (h : ∀ d ∈ before, bare (Entry.key d) ≠ bare (Entry.key e)) (after : List α) :
    (registerAll {} (before ++ e :: after)).find? (bare (Entry.key e)) =
      some ((registerAll {} before).register e).2.index := by
  have hn : (registerAll {} before).find? (bare (Entry.key e)) = none := by
    rw [Option.eq_none_iff_forall_ne_some]
    intro i hi
    rcases exists_declaration consistent_empty hi with hk | ⟨d, hd, hk | hk⟩
    · cases hk
    · exact h d hd (by rw [← hk, Name.bare_bare])
    · exact h d hd hk.symm
  rw [registerAll_append, registerAll_cons]
  apply registerAll_keeps
  rw [(register_spec _ e).find?_eq (consistent_empty.registerAll before), hn]
  simp

/-- What a table keeps of the history of its declarations. -/
structure Faithful (table : SymbolTable α) (history : List α) : Prop where
  /-- Every key denotes an entry. -/
  valid : ∀ k i, table.find? k = some i → i < table.entries.length
  /-- Every entry is bound under the key of its own name. -/
  named : ∀ i e, table.entries[i]? = some e → table.find? (Entry.key e) = some i
  distinct : (table.entries.map Entry.key).Nodup
  /-- An entry has at most one key with a schema and at most one without. -/
  one_key : ∀ k l i, table.find? k = some i → table.find? l = some i →
    ('.' ∈ k ↔ '.' ∈ l) → k = l
  /-- Declarations with different full keys never share an entry. -/
  separate : ∀ d e i, RegisteredTo history d i → RegisteredTo history e i →
    '.' ∈ Entry.key d → '.' ∈ Entry.key e → Entry.key d = Entry.key e
  registered : ∀ e i, RegisteredTo history e i → table.find? (Entry.key e) = some i
  /-- Both keys of every declaration are bound. -/
  bound : ∀ e ∈ history, ∃ i j, table.find? (Entry.key e) = some i ∧
    table.find? (bare (Entry.key e)) = some j
  /-- A bound key keeps its entry whatever is declared later. -/
  kept : ∀ k i, table.find? k = some i → ∀ more, (table.registerAll more).find? k = some i
  /-- A bare name denotes the first entry that claimed it. -/
  first : ∀ before e after, history = before ++ e :: after →
    (∀ d ∈ before, bare (Entry.key d) ≠ bare (Entry.key e)) →
    table.find? (bare (Entry.key e)) = some ((registerAll {} before).register e).2.index

/--
Every history of declarations ends in a table that is faithful to it: no schema takes or loses the
entry of another one, in whatever order full and bare names are declared.
-/
theorem registerAll_faithful (history : List α) :
    (registerAll ({} : SymbolTable α) history).Faithful history := by
  have hc := (consistent_empty (α := α)).registerAll history
  refine ⟨fun _ _ => hc.valid, fun _ _ => hc.named, ?_, fun _ _ _ => hc.one_key, ?_,
    fun _ _ => RegisteredTo.finds, ?_, fun _ _ => registerAll_keeps, ?_⟩
  · rw [List.Nodup, List.pairwise_map, List.pairwise_iff_getElem]
    intro i j hi hj hlt he
    have hki := hc.named (List.getElem?_eq_getElem hi)
    have hkj := hc.named (List.getElem?_eq_getElem hj)
    rw [he, hkj] at hki
    cases hki
    exact Nat.lt_irrefl _ hlt
  · intro d e i hd he hqd hqe
    exact hc.one_key hd.finds he.finds (by simp [hqd, hqe])
  · intro e he
    obtain ⟨before, after, hh⟩ := List.append_of_mem he
    have hf := RegisteredTo.finds ⟨before, after, hh, rfl⟩
    obtain ⟨j, hj⟩ := hc.bare_bound hf
    exact ⟨_, j, hf, hj⟩
  · rintro before e after rfl hb
    exact registerAll_first hb after

end SymbolTable

end Bindery

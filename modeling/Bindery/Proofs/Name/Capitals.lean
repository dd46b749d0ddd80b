import Bindery.Proofs.Name.Legal
import Bindery.Proofs.Text.CamelCase
import Mathlib.Data.List.Sections

namespace Bindery.Name

open Text (Divides origins upperShifts lowerShifts)

/-- The reserved words that do not begin with a small letter. -/
def capitalKeywords : List Text :=
  ["False", "None", "True"].map String.toList

/-- A word as it is, in small letters and in capitals: without a change of case that divides it. -/
def spellings (word : Text) : List Text :=
  [word, word.map Char.toLower, word.map Char.toUpper]

/-- A name holds nothing but a word, besides characters that only divide names. -/
def Spells (name word : Text) : Prop :=
  ∃ front spelling back, name = front ++ spelling ++ back ∧ spelling ∈ spellings word ∧
    Divides front ∧ Divides back

section Casings

def casings (c : Char) : List Char :=
  [c.toLower, c.toUpper]

/-- The characters that a table makes a letter of are that letter, small or capital. -/
def ComesOfCasings (table : List Text.Shift) (d : Char) : Prop :=
  d.toNat ≠ 0 ∧ origins d.toNat table ⊆ (casings d).map Char.toNat

instance (table : List Text.Shift) (d : Char) : Decidable (ComesOfCasings table d) :=
  inferInstanceAs (Decidable (_ ∧ _))

theorem ComesOfCasings.mem_casings {c d : Char} {table : List Text.Shift}
    (hd : ComesOfCasings table d) (h : c.toNat ∈ origins d.toNat table) : c ∈ casings d := by
  obtain ⟨e, he, hc⟩ := List.mem_map.mp (hd.2 h)
  rwa [← Char.toNat_inj.mp hc]

/-- A capital with small letters behind it comes of one word in some mixture of cases. -/
theorem exists_casing {first : Char} {tail name : Text} (hs : ∀ c ∈ tail, c.isLower = true)
    (hf : ComesOfCasings upperShifts first) (ht : ∀ c ∈ tail, ComesOfCasings lowerShifts c)
    (h : Text.upperCamel name = first :: tail) : ∃ word, Text.nameWords name = [word] ∧
      word ∈ ((first :: tail).map casings).sections := by
  obtain ⟨c, rest, hw, hc, hr⟩ := Text.exists_word_of_capitalized
    (fun w hw => Text.ne_nil_of_mem_nameWords hw) hs h
  refine ⟨c :: rest, hw, List.mem_sections.mpr (.cons ?_ ?_)⟩
  · exact hf.mem_casings (Text.mem_origins_of_upperChar hc hf.1)
  · have hrest := (List.forall₂_and_left ..).mpr ⟨ht, (Text.forall₂_of_lowerTail hs hr).flip⟩
    rw [List.forall₂_map_right_iff]
    refine (hrest.imp ?_).flip
    rintro d c ⟨hd, hc⟩
    exact hd.mem_casings (Text.mem_origins_of_lowerChar hc hd.1)

end Casings

theorem exists_letters {k : Text} (h : k ∈ capitalKeywords) :
    ∃ first tail, k = first :: tail ∧ (∀ c ∈ tail, c.isLower = true) ∧
      ComesOfCasings upperShifts first ∧ ∀ c ∈ tail, ComesOfCasings lowerShifts c := by
  have hall : ∀ k ∈ capitalKeywords, k.head?.any (ComesOfCasings upperShifts ·) = true ∧
      k.tail.all (fun c => c.isLower && decide (ComesOfCasings lowerShifts c)) = true := by
    decide
  obtain ⟨hf, ht⟩ := hall k h
  cases k with
  | nil => cases hf
  | cons first tail =>
    refine ⟨first, tail, rfl, ?_, by simpa using hf, ?_⟩
    · intro c hc
      exact (Bool.and_eq_true_iff.mp (List.all_eq_true.mp ht c hc)).1
    · intro c hc
      exact of_decide_eq_true (Bool.and_eq_true_iff.mp (List.all_eq_true.mp ht c hc)).2

theorem mem_spellings {k word : Text} (hk : k ∈ capitalKeywords)
    (hw : word ∈ (k.map casings).sections)
    (h : Text.pieceWordsFrom .boundary [] word = [word]) : word ∈ spellings k := by
  have hall : ∀ k ∈ capitalKeywords, ∀ word ∈ (k.map casings).sections,
      Text.pieceWordsFrom .boundary [] word = [word] → word ∈ spellings k := by
    decide
  exact hall k hk word hw h

theorem capitalized_spellings : ∀ k ∈ capitalKeywords, ∀ word ∈ spellings k,
    word ≠ [] ∧ word.all Text.isAlphanumeric = true ∧
      Text.pieceWordsFrom .boundary [] word = [word] ∧ Text.capitalized word = k := by
  decide

theorem upperCamel_eq_iff {k : Text} (hk : k ∈ capitalKeywords) (name : Text) :
    Text.upperCamel name = k ↔ Spells name k := by
  constructor
  · intro h
    obtain ⟨first, tail, rfl, hs, hf, ht⟩ := exists_letters hk
    obtain ⟨word, hn, hw⟩ := exists_casing hs hf ht h
    obtain ⟨⟨-, -, hp⟩, front, back, he, hfront, hback⟩ := Text.nameWords_eq_singleton_iff.mp hn
    exact ⟨front, word, back, he, mem_spellings hk hw hp, hfront, hback⟩
  · rintro ⟨front, word, back, he, hw, hfront, hback⟩
    obtain ⟨hne, ha, hp, hc⟩ := capitalized_spellings k hk word hw
    have hn : Text.nameWords name = [word] := Text.nameWords_eq_singleton_iff.mpr
      ⟨⟨hne, List.all_eq_true.mp ha, hp⟩, front, back, he, hfront, hback⟩
    rw [Text.upperCamel, hn, List.flatMap_singleton, hc]

/-- A text without underscores is what it was before the other characters were replaced. -/
theorem eq_of_sanitize {name clean : Text} (hu : '_' ∉ clean) (h : sanitize name = clean) :
    name = clean := by
  have hself : name.map (fun c => if isIdentifierChar c then c else '_') = name.map id := by
    apply List.map_congr_left
    intro c hc
    have hm : (if isIdentifierChar c then c else '_') ∈ clean := by
      rw [← h]
      exact List.mem_map_of_mem hc
    split
    · rfl
    · rename_i hn
      rw [if_neg hn] at hm
      exact absurd hm hu
  rw [← h, sanitize, hself, List.map_id]

theorem className_eq_iff {k : Text} (hk : k ∈ capitalKeywords) (name : Text) :
    className name = k ↔ Spells name k := by
  have hall : ∀ k ∈ capitalKeywords, k ≠ "Record".toList ∧ k ≠ [] ∧ '_' ∉ k ∧ sanitize k = k ∧
      startsWithDigit k = false ∧ startsWithDigit k.tail = false := by decide
  obtain ⟨hrecord, hn, hu, hclean, hd, htail⟩ := hall k hk
  rw [← upperCamel_eq_iff hk]
  constructor
  · intro h
    simp only [className] at h
    split_ifs at h with he hs
    · exact absurd h.symm hrecord
    · have ht : k.tail = sanitize (Text.upperCamel name) := by
        rw [← h]
        rfl
      rw [ht, hs] at htail
      cases htail
    · exact eq_of_sanitize hu h
  · intro h
    simp only [className]
    rw [h, hclean, if_neg (by simpa using hn), hd]
    rfl

theorem head?_className {name : Text} {c : Char} (h : (className name).head? = some c) :
    c.isLower = false := by
  simp only [className] at h
  split_ifs at h with he hd
  · cases h
    decide
  · cases h
    decide
  · rw [sanitize, List.head?_map] at h
    obtain ⟨d, hd, rfl⟩ := Option.map_eq_some_iff.mp h
    split
    · exact Text.head?_upperCamel hd
    · decide

theorem isKeyword_append_className (name rest : Text) :
    isKeyword (className name ++ rest) = true ↔ className name ++ rest ∈ capitalKeywords := by
  have hall : ∀ k ∈ keywords, k.head?.any Char.isLower = true ∨ k ∈ capitalKeywords := by decide
  have hsub : ∀ k ∈ capitalKeywords, isKeyword k = true := by decide
  refine ⟨fun h => ?_, hsub _⟩
  rcases hall _ (List.contains_iff_mem.mp h) with hl | hl
  · obtain ⟨c, more, hc⟩ := List.exists_cons_of_ne_nil (isProper_className name).nonempty
    rw [hc, List.cons_append, List.head?_cons, Option.any_some,
      head?_className (congrArg List.head? hc)] at hl
    cases hl
  · exact hl

theorem getLast?_resultClass (identifier : Text) :
    (resultClass identifier).getLast? = some 't' := by
  have hn : "Result".toList ≠ [] := by decide
  rw [resultClass, List.getLast?_append_of_ne_nil _ hn]
  rfl

end Bindery.Name

import Bindery.Proofs.Text.Letters
import Bindery.Text.Words
import Mathlib.Data.List.Forall2

namespace Bindery.Text

section Pieces

theorem flatten_pieceWordsFrom (run : CaseRun) (word rest : Text) :
    (pieceWordsFrom run word rest).flatten = word ++ rest := by
  fun_induction pieceWordsFrom run word rest with
  | case1 run word => simp
  | case2 run word c => simp
  | case3 run word c d rest h ih => simp [ih]
  | case4 run word c d rest h h' ih => simp [ih]
  | case5 run word c d rest h h' ih => simp [ih]

/-- No word of a piece is empty: when the run is one of capitals, something has been read. -/
theorem ne_nil_of_mem_pieceWordsFrom {run : CaseRun} {word rest : Text}
    (hw : run = .upper → word ≠ []) (hr : rest ≠ []) :
    ∀ w ∈ pieceWordsFrom run word rest, w ≠ [] := by
  fun_induction pieceWordsFrom run word rest with
  | case1 run word => exact absurd rfl hr
  | case2 run word c => simp
  | case3 run word c d rest h ih =>
    intro w hm
    rcases List.mem_cons.mp hm with rfl | hm
    · simp
    · exact ih nofun (List.cons_ne_nil d rest) w hm
  | case4 run word c d rest h h' ih =>
    intro w hm
    rcases List.mem_cons.mp hm with rfl | hm
    · exact hw h'.1
    · exact ih nofun (List.cons_ne_nil d rest) w hm
  | case5 run word c d rest h h' ih =>
    exact ih (fun _ => by simp) (List.cons_ne_nil d rest)

theorem pieceWordsFrom_ne_nil {piece : Text} (h : piece ≠ []) :
    pieceWordsFrom .boundary [] piece ≠ [] := by
  intro hn
  have hf := flatten_pieceWordsFrom .boundary [] piece
  rw [hn] at hf
  exact h hf.symm

def Divides (t : Text) : Prop :=
  ∀ c ∈ t, isAlphanumeric c = false

theorem nameWords_append_cons {c : Char} (h : isAlphanumeric c = false) (s t : Text) :
    nameWords (s ++ c :: t) = nameWords s ++ nameWords t := by
  have hc : (!isAlphanumeric c) = true := by
    rw [h]
    rfl
  rw [nameWords, List.splitOnP_append_cons s t hc, List.filter_append, List.flatMap_append,
    nameWords, nameWords]

theorem nameWords_divides_append {front : Text} (h : Divides front) (t : Text) :
    nameWords (front ++ t) = nameWords t := by
  induction front with
  | nil => rfl
  | cons c front ih =>
    obtain ⟨hc, hf⟩ := List.forall_mem_cons.mp h
    exact (nameWords_append_cons hc [] (front ++ t)).trans (ih hf)

theorem nameWords_piece {piece : Text} (h : ∀ c ∈ piece, isAlphanumeric c = true)
    (hn : piece ≠ []) : nameWords piece = pieceWordsFrom .boundary [] piece := by
  have hp : ∀ c ∈ piece, (!isAlphanumeric c) = false := by
    intro c hc
    rw [h c hc]
    rfl
  simp [nameWords, List.splitOnP_eq_singleton hp, hn]

theorem nameWords_piece_append {piece back : Text} (hp : ∀ c ∈ piece, isAlphanumeric c = true)
    (hn : piece ≠ []) (hb : Stops isAlphanumeric back) :
    nameWords (piece ++ back) = pieceWordsFrom .boundary [] piece ++ nameWords back := by
  rw [← nameWords_piece hp hn]
  cases back with
  | nil => simp [nameWords]
  | cons c back =>
    have hc := stops_cons.mp hb
    rw [nameWords_append_cons hc, ← List.nil_append (c :: back), nameWords_append_cons hc]
    rfl

/-- A name falls into what divides at its front, a piece, and a rest that does not lengthen it. -/
theorem exists_piece (name : Text) : ∃ front piece back, name = front ++ (piece ++ back) ∧
    Divides front ∧ (∀ c ∈ piece, isAlphanumeric c = true) ∧ Stops isAlphanumeric back ∧
      (piece = [] → back = []) := by
  obtain ⟨front, rest, rfl, -, hf, hr⟩ := exists_front (fun c => !isAlphanumeric c) name
  obtain ⟨piece, back, rfl, -, hp, hb⟩ := exists_front isAlphanumeric rest
  refine ⟨front, piece, back, rfl, ?_, hp, hb, ?_⟩
  · intro c hc
    simpa using hf c hc
  · rintro rfl
    cases back with
    | nil => rfl
    | cons c back =>
      have hc : isAlphanumeric c = true := by simpa using stops_cons.mp hr
      rw [stops_cons.mp hb] at hc
      cases hc

theorem divides_of_nameWords {name : Text} (h : nameWords name = []) : Divides name := by
  obtain ⟨front, piece, back, rfl, hf, hp, hb, he⟩ := exists_piece name
  rw [nameWords_divides_append hf] at h
  by_cases hn : piece = []
  · rw [he hn, hn, List.append_nil, List.append_nil]
    exact hf
  · rw [nameWords_piece_append hp hn hb] at h
    exact absurd (List.append_eq_nil_iff.mp h).1 (pieceWordsFrom_ne_nil hn)

theorem ne_nil_of_mem_nameWords {name word : Text} (h : word ∈ nameWords name) : word ≠ [] := by
  obtain ⟨piece, hp, hw⟩ := List.mem_flatMap.mp h
  have hn : piece ≠ [] := by simpa using (List.mem_filter.mp hp).2
  have hrun : CaseRun.boundary = .upper → ([] : Text) ≠ [] := by
    intro h
    cases h
  exact ne_nil_of_mem_pieceWordsFrom hrun hn word hw

theorem nameWords_eq_singleton_iff {name word : Text} : nameWords name = [word] ↔
    (word ≠ [] ∧ (∀ c ∈ word, isAlphanumeric c = true) ∧
      pieceWordsFrom .boundary [] word = [word]) ∧
      ∃ front back, name = front ++ word ++ back ∧ Divides front ∧ Divides back := by
  constructor
  · intro h
    obtain ⟨front, piece, back, rfl, hf, hp, hb, he⟩ := exists_piece name
    rw [nameWords_divides_append hf] at h
    have hn : piece ≠ [] := by
      intro hn
      rw [hn, he hn] at h
      cases h
    rw [nameWords_piece_append hp hn hb] at h
    rcases List.append_eq_singleton_iff.mp h with ⟨hnil, -⟩ | ⟨hpiece, hback⟩
    · exact absurd hnil (pieceWordsFrom_ne_nil hn)
    · have hflat := flatten_pieceWordsFrom .boundary [] piece
      rw [hpiece, List.flatten_singleton, List.nil_append] at hflat
      rw [hflat]
      refine ⟨⟨hn, hp, hflat ▸ hpiece⟩, front, back, ?_, hf, divides_of_nameWords hback⟩
      rw [List.append_assoc]
  · rintro ⟨⟨hn, hw, hpiece⟩, front, back, rfl, hf, hb⟩
    have hstop : Stops isAlphanumeric back := by
      intro c hc
      exact hb c (List.mem_of_head? hc)
    have hback : nameWords back = [] := by
      have h := nameWords_divides_append hb []
      rw [List.append_nil] at h
      exact h
    rw [List.append_assoc, nameWords_divides_append hf, nameWords_piece_append hw hn hstop, hpiece,
      hback, List.append_nil]

end Pieces

section Capitals

theorem exists_capitalized {word : Text} (h : word ≠ []) :
    ∃ c rest, capitalized word = c :: rest ∧ c.isLower = false := by
  cases word with
  | nil => exact absurd rfl h
  | cons a tail =>
    obtain ⟨c, rest, hc⟩ := List.exists_cons_of_ne_nil (upperChar_ne_nil a)
    refine ⟨c, rest ++ lowerTail tail, ?_, ?_⟩
    · rw [capitalized, hc, List.cons_append]
    · exact isLower_upperChar (hc ▸ List.mem_cons_self)

theorem head?_upperCamel {name : Text} {c : Char} (h : (upperCamel name).head? = some c) :
    c.isLower = false := by
  rw [upperCamel] at h
  cases hw : nameWords name with
  | nil =>
    rw [hw] at h
    cases h
  | cons word words =>
    obtain ⟨d, rest, hd, hl⟩ :=
      exists_capitalized (ne_nil_of_mem_nameWords (hw ▸ List.mem_cons_self))
    rw [hw, List.flatMap_cons, hd] at h
    cases h
    exact hl

theorem exists_word_of_capitalized {words : List Text} (hn : ∀ w ∈ words, w ≠ []) {first : Char}
    {tail : Text} (ht : ∀ c ∈ tail, c.isLower = true)
    (h : words.flatMap capitalized = first :: tail) :
    ∃ c rest, words = [c :: rest] ∧ upperChar c = [first] ∧ lowerTail rest = tail := by
  cases words with
  | nil => cases h
  | cons word words =>
    cases word with
    | nil => exact absurd rfl (hn [] List.mem_cons_self)
    | cons c rest =>
      obtain ⟨u, us, hu⟩ := List.exists_cons_of_ne_nil (upperChar_ne_nil c)
      rw [List.flatMap_cons, capitalized, hu, List.cons_append, List.cons_append,
        List.cons.injEq] at h
      obtain ⟨rfl, rfl⟩ := h
      have hus : us = [] := by
        rw [List.eq_nil_iff_forall_not_mem]
        intro d hd
        have hl := isLower_upperChar (hu ▸ List.mem_cons_of_mem u hd)
        rw [ht d (by simp [hd])] at hl
        cases hl
      have hwords : words = [] := by
        rw [List.eq_nil_iff_forall_not_mem]
        intro w hw
        obtain ⟨d, more, hd, hl⟩ := exists_capitalized (hn w (List.mem_cons_of_mem _ hw))
        have hm : d ∈ words.flatMap capitalized :=
          List.mem_flatMap.mpr ⟨w, hw, hd ▸ List.mem_cons_self⟩
        rw [ht d (by simp [hm])] at hl
        cases hl
      rw [hus, hwords]
      refine ⟨c, rest, rfl, ?_, ?_⟩
      · rw [hu, hus]
      · simp

theorem forall₂_of_lowerTail {rest tail : Text} (ht : ∀ c ∈ tail, c.isLower = true)
    (h : lowerTail rest = tail) : List.Forall₂ (fun c d => lowerChar c = [d]) rest tail := by
  -- A character that becomes several, and a last sigma, leave something that is no small letter.
  have hone {c : Char} (hc : ∀ d ∈ lowerChar c, d.isLower = true) : ∃ d, lowerChar c = [d] := by
    rcases lowerChar_cases c with h | h
    · exact absurd (hc (Char.ofNat 0x307) (by simp [h])) (by decide)
    · exact ⟨_, h⟩
  subst h
  fun_induction lowerTail rest with
  | case1 => exact .nil
  | case2 => exact absurd (ht 'ς' List.mem_cons_self) (by decide)
  | case3 c hc =>
    obtain ⟨d, hd⟩ := hone ht
    rw [hd]
    exact .cons hd .nil
  | case4 c rest hr ih =>
    obtain ⟨d, hd⟩ := hone fun d hd => ht d (List.mem_append_left _ hd)
    rw [hd] at ht ⊢
    exact .cons hd (ih fun d hm => ht d (List.mem_append_right _ hm))

end Capitals

end Bindery.Text

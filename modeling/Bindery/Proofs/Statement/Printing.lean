import Bindery.Proofs.Statement.Groups
import Bindery.Proofs.Token.Printing

namespace Bindery

namespace Piece

/-- Code at both ends stays when white space and comments are cut off. -/
theorem Bounded.codeOf_place {ps : List Piece} (h : Bounded ps) (offset : Nat)
    (position : Position) : codeOf (place offset position ps) = place offset position ps := by
  obtain ⟨p, qs, hf, hp⟩ := h.first
  obtain ⟨rs, q, hl, hq⟩ := h.last
  have hd : (place offset position ps).dropWhile Token.isTrivia = place offset position ps := by
    rw [hf, place, List.dropWhile_cons_of_neg (by simp [isTrivia_eq, hp])]
  rw [codeOf, hd, hl, place_append, List.reverse_append]
  simp only [place, List.reverse_singleton, List.singleton_append]
  rw [List.dropWhile_cons_of_neg (by simp [isTrivia_eq, hq])]
  simp

theorem flatMap_blanked_place {ps : List Piece} (h : ∀ p ∈ ps, p.kind ≠ .comment) (offset : Nat)
    (position : Position) : (place offset position ps).flatMap Pending.blanked = print ps := by
  induction ps generalizing offset position with
  | nil => rfl
  | cons p ps ih =>
    rw [place, List.flatMap_cons, ih (fun q hq => h q (by simp [hq])), print_cons,
      Pending.blanked, if_neg (h p (by simp))]

end Piece

theorem segment_print {ps : List Piece} (hs : Piece.Spelled [] ps) (hb : Piece.Bounded ps)
    (hc : ∀ p ∈ ps, p.kind ≠ .comment)
    (hm : ∀ t ∈ Piece.place 0 .start ps, t.isSymbol ';' = false)
    (hd : Balanced Token.isSymbol '(' ')' (Piece.place 0 .start ps)) :
    ∃ doc, segment (Piece.print ps) = .ok [⟨Piece.print ps, .start, doc⟩] := by
  obtain ⟨p, qs, hf, hp⟩ := hb.first
  have ho := outcome_segment (tokenize_print hs .start)
  have hg : statementGroups (Piece.place 0 .start ps) = [Piece.place 0 .start ps] := by
    rw [statementGroups_of_forall hm, if_pos]
    simp [hf, Piece.place, Piece.isTrivia_eq, hp]
  rw [hg] at ho
  cases hr : segment (Piece.print ps) with
  | error e =>
    rw [hr] at ho
    obtain ⟨before, g, after, place, quoted, he, -, hfail, -⟩ := ho.error
    have hmem : g ∈ [Piece.place 0 .start ps] := by simp [he]
    rw [List.mem_singleton] at hmem
    exact absurd (hmem ▸ hd) hfail.not_balanced
  | ok ss =>
    rw [hr] at ho
    cases ho with
    | @statement _ _ s _ _ hst hnil =>
      cases hnil
      obtain ⟨text, position, doc⟩ := s
      have ht : text = Piece.print ps :=
        hst.text.trans (by rw [hb.codeOf_place, Piece.flatMap_blanked_place hc])
      have hpos : position = .start := by
        have h := hst.position
        rw [hf, Piece.place, List.find?_cons_of_pos (by simp [Piece.isTrivia_eq, hp])] at h
        exact (Option.some.inj h).symm
      exact ⟨doc, by rw [ht, hpos]⟩

end Bindery

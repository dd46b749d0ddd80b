import Bindery.Proofs.Fragment.Whole

namespace Bindery

open Lexeme
open Text (Stops)

theorem Strokes.behind {x y : Text} {own all : List Text} (hx : Strokes x own)
    (hall : Strokes (x ++ y) all) (hs : Stops isNameChar y) :
    ∃ more, all = own ++ more ∧ Strokes y more := by
  induction hx generalizing all with
  | done => exact ⟨all, rfl, hall⟩
  | @stroke s rest own h _ ih =>
    generalize ht : s ++ rest ++ y = text at hall
    rw [List.append_assoc] at ht
    cases hall with
    | done =>
      obtain ⟨c, body, rfl⟩ := h.exists_cons
      cases ht
    | stroke h' hr =>
      obtain ⟨rfl, rfl⟩ := Stroke.unique ((stroke_append_iff hs).mpr h) h' ht
      obtain ⟨more, rfl, hm⟩ := ih hr
      exact ⟨more, rfl, hm⟩

theorem Strokes.behind_comma {x y : Text} {own all : List Text} (hx : Strokes x own)
    (hall : Strokes (x ++ ',' :: y) all) : ∃ more, all = own ++ [','] :: more ∧ Strokes y more := by
  obtain ⟨comma, rfl, hc⟩ := hx.behind hall (stops_comma y)
  generalize ht : ',' :: y = text at hc
  cases hc with
  | done => cases ht
  | @stroke s rest more h hr =>
    have hp : Stroke [','] y := .plain (by decide) (by decide) (by simp)
    obtain ⟨rfl, rfl⟩ := hp.unique h ht
    exact ⟨more, rfl, hr⟩

theorem Whole.cuts_iff {p x : Text} {pieces : List Text} (hp : Whole p) :
    Cuts (p ++ ',' :: x) pieces ↔ ∃ more, Cuts x more ∧ pieces = p :: more := by
  constructor
  · rintro ⟨all, hx, hc⟩
    obtain ⟨own, ho, hw⟩ := hp
    obtain ⟨more, rfl, hm⟩ := ho.behind_comma hx
    rw [cutRun_comma (cutRun_whole_iff.mp hw).1 rfl, List.flatMap_id, ← ho.text_eq] at hc
    obtain ⟨rest, hr, rfl⟩ := Option.map_eq_some_iff.mp hc
    exact ⟨rest, ⟨more, hm, hr⟩, rfl⟩
  · rintro ⟨more, hm, rfl⟩
    exact (cuts_cons_iff (Bindery.cuts_iff.mp hm).1).mpr ⟨x, rfl, hp, hm⟩

theorem Cuts.append_iff {x y : Text} {pieces own : List Text} (h : Cuts x own) :
    Cuts (x ++ ',' :: y) pieces ↔ ∃ more, Cuts y more ∧ pieces = own ++ more := by
  induction own generalizing x pieces with
  | nil => exact absurd rfl (cuts_iff.mp h).1
  | cons p own ih =>
    by_cases hn : own = []
    · subst hn
      obtain ⟨hp, rfl⟩ := cuts_singleton_iff.mp h
      exact hp.cuts_iff
    · obtain ⟨rest, rfl, hp, hr⟩ := (cuts_cons_iff hn).mp h
      rw [List.append_assoc, List.cons_append, hp.cuts_iff]
      simp only [ih hr]
      constructor
      · rintro ⟨_, ⟨more, hm, rfl⟩, rfl⟩
        exact ⟨more, hm, rfl⟩
      · rintro ⟨more, hm, rfl⟩
        exact ⟨_, ⟨more, hm, rfl⟩, rfl⟩

theorem flatMap_comma {own : List Text} (hn : own ≠ []) :
    own.flatMap (· ++ [',']) = Text.join [','] own ++ [','] := by
  induction own with
  | nil => exact absurd rfl hn
  | cons p own ih =>
    rw [List.flatMap_cons]
    by_cases ho : own = []
    · subst ho
      simp [Text.join]
    · rw [ih ho, Text.join, Text.join, List.intercalate_cons_of_ne_nil ho]
      simp

theorem splitTopLevel_of_ofPiece? {here : Position} {p : Text} {f : Fragment} (hp : Whole p)
    (h : Fragment.ofPiece? here p = some f) : splitTopLevel f.text f.position = .ok [f] := by
  rw [Fragment.ofPiece?] at h
  split at h
  · cases h
  · rename_i hb
    cases h
    obtain ⟨lead, trail, hl, ht, he⟩ := Text.exists_trim p
    rw [he, whole_blank_iff hl ht] at hp
    have htight := Text.tight_trim (Bool.eq_false_iff.mpr hb)
    have hnone : ∀ c ∈ ([] : Text), Text.isBlank c = true := List.forall_mem_nil _
    have ho := Fragment.ofPiece?_tight htight hnone hnone
      (here.advance (p.takeWhile Text.isBlank))
    rw [List.append_nil, List.nil_append, Position.advance_nil] at ho
    refine splitTopLevel_iff_cuts.mpr ⟨[Text.trim p], hp, ?_⟩
    rw [Fragment.ofPieces, ho]
    rfl

theorem exists_piece_of_mem_ofPieces {here : Position} {pieces : List Text} {f : Fragment}
    (h : f ∈ Fragment.ofPieces here pieces) :
    ∃ p ∈ pieces, ∃ there, Fragment.ofPiece? there p = some f := by
  induction pieces generalizing here with
  | nil => cases h
  | cons p pieces ih =>
    rw [Fragment.ofPieces_cons, List.mem_append, Option.mem_toList] at h
    rcases h with h | h
    · exact ⟨p, List.mem_cons_self, here, h⟩
    · obtain ⟨q, hq, hf⟩ := ih h
      exact ⟨q, List.mem_cons_of_mem p hq, hf⟩

/--
Splitting undoes joining: a list that can be split, a comma and a second list are split exactly if
the second list can be split from its place on, into the fragments of the one and those of the
other. And a fragment is not split again: at its place it is the only fragment of its text.
-/
theorem splitTopLevel_comma {a : Text} {origin : Position} {fragments : List Fragment}
    (h : splitTopLevel a origin = .ok fragments) :
    (∀ b all, splitTopLevel (a ++ ',' :: b) origin = .ok all ↔
      ∃ rest, splitTopLevel b (origin.advance (a ++ [','])) = .ok rest ∧
        all = fragments ++ rest) ∧
    ∀ f ∈ fragments, splitTopLevel f.text f.position = .ok [f] := by
  obtain ⟨own, hc, rfl⟩ := splitTopLevel_iff_cuts.mp h
  obtain ⟨hn, rfl, hw⟩ := cuts_iff.mp hc
  constructor
  · intro b all
    have hp (more : List Text) : Fragment.ofPieces origin (own ++ more) =
        Fragment.ofPieces origin own ++
          Fragment.ofPieces (origin.advance (Text.join [','] own ++ [','])) more := by
      rw [Fragment.ofPieces_append, flatMap_comma hn]
    simp only [splitTopLevel_iff_cuts, hc.append_iff]
    constructor
    · rintro ⟨_, ⟨more, hm, rfl⟩, rfl⟩
      exact ⟨_, ⟨more, hm, rfl⟩, hp more⟩
    · rintro ⟨_, ⟨more, hm, rfl⟩, rfl⟩
      exact ⟨_, ⟨more, hm, rfl⟩, (hp more).symm⟩
  · intro f hf
    obtain ⟨p, hm, there, ho⟩ := exists_piece_of_mem_ofPieces hf
    exact splitTopLevel_of_ofPiece? (hw p hm) ho

theorem splitTopLevel_comma_of_dollars :
    splitTopLevel "f(a,b) $".toList .start = .ok [⟨"f(a,b) $".toList, ⟨1, 1⟩⟩] ∧
      splitTopLevel "f(a,b) $,$ 'c,'".toList .start =
        .ok [⟨"f(a,b) $".toList, ⟨1, 1⟩⟩, ⟨"$ 'c,'".toList, ⟨1, 10⟩⟩] ∧
      splitTopLevel "f(a,b) $".toList ⟨1, 1⟩ = .ok [⟨"f(a,b) $".toList, ⟨1, 1⟩⟩] := by
  have ha : splitTopLevel "f(a,b) $".toList .start = .ok [⟨"f(a,b) $".toList, ⟨1, 1⟩⟩] := by cbv
  have hb : splitTopLevel "$ 'c,'".toList (Position.start.advance ("f(a,b) $".toList ++ [','])) =
      .ok [⟨"$ 'c,'".toList, ⟨1, 10⟩⟩] := by cbv
  obtain ⟨hjoin, hatomic⟩ := splitTopLevel_comma ha
  exact ⟨ha, (hjoin _ _).mpr ⟨_, hb, rfl⟩, hatomic _ List.mem_cons_self⟩

end Bindery

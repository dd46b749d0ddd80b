import Bindery.Proofs.Fragment.Whole

namespace Bindery

def isFiller (c : Char) : Bool :=
  c == ',' || Text.isBlank c

/-- A text that stands at `here` and holds the fragments, with fillers around and between them. -/
inductive Holds : Position → Text → List Fragment → Prop
  | nothing {here : Position} {gap : Text} : (∀ c ∈ gap, isFiller c = true) → Holds here gap []
  | fragment {here : Position} {gap text rest : Text} {fragments : List Fragment} :
      (∀ c ∈ gap, isFiller c = true) → text.Tight →
      Holds (here.advance (gap ++ text)) rest fragments →
      Holds here (gap ++ (text ++ rest)) (⟨text, here.advance gap⟩ :: fragments)

theorem Holds.filler_append {here : Position} {gap t : Text} {fragments : List Fragment}
    (hg : ∀ c ∈ gap, isFiller c = true) (h : Holds (here.advance gap) t fragments) :
    Holds here (gap ++ t) fragments := by
  generalize hp : here.advance gap = there at h
  cases h with
  | nothing hb =>
    apply Holds.nothing
    intro c hc
    exact (List.mem_append.mp hc).elim (hg c) (hb c)
  | @fragment _ gap' text rest fragments hb ht hr =>
    subst hp
    rw [← Position.advance_append] at hr ⊢
    rw [← List.append_assoc]
    refine .fragment ?_ ht ?_
    · intro c hc
      exact (List.mem_append.mp hc).elim (hg c) (hb c)
    · rw [List.append_assoc]
      exact hr

theorem isFiller_of_blank {c : Char} (h : Text.isBlank c = true) : isFiller c = true := by
  simp [isFiller, h]

theorem Holds.piece_append {here : Position} (p : Text) {rest : Text} {fragments : List Fragment}
    (h : Holds (here.advance p) rest fragments) :
    Holds here (p ++ rest) ((Fragment.ofPiece? here p).toList ++ fragments) := by
  cases hb : Text.isBlankText p with
  | true =>
    have hn : Fragment.ofPiece? here p = none := by rw [Fragment.ofPiece?, if_pos hb]
    rw [hn]
    apply h.filler_append
    intro c hc
    exact isFiller_of_blank (List.all_eq_true.mp hb c hc)
  | false =>
    obtain ⟨lead, trail, hl, ht, he⟩ := Text.exists_trim p
    have htight := Text.tight_trim hb
    generalize Text.trim p = text at he htight
    subst he
    rw [Fragment.ofPiece?_tight htight hl ht]
    have hrest : Holds (here.advance (lead ++ text)) (trail ++ rest) fragments := by
      apply Holds.filler_append fun c hc => isFiller_of_blank (ht c hc)
      rwa [← Position.advance_append, List.append_assoc]
    have hf := Holds.fragment (fun c hc => isFiller_of_blank (hl c hc)) htight hrest
    rw [List.append_assoc, List.append_assoc]
    exact hf

theorem holds_ofPieces (here : Position) {pieces : List Text} (hn : pieces ≠ []) :
    Holds here (Text.join [','] pieces) (Fragment.ofPieces here pieces) := by
  induction pieces generalizing here with
  | nil => exact absurd rfl hn
  | cons p pieces ih =>
    rw [Fragment.ofPieces_cons]
    by_cases hm : pieces = []
    · subst hm
      have hend : Holds (here.advance p) [] [] := .nothing (List.forall_mem_nil _)
      have hp := hend.piece_append p
      rw [Text.join, List.intercalate_singleton]
      rwa [List.append_nil] at hp
    · rw [Text.join, List.intercalate_cons_of_ne_nil hm, List.append_assoc]
      apply Holds.piece_append
      apply Holds.filler_append (List.forall_mem_singleton.mpr rfl)
      rw [← Position.advance_append]
      exact ih _ hm

/-- A stretch of bytes. -/
structure Span where
  start : Nat
  stop : Nat
  deriving DecidableEq, Repr

/-- A fragment is the text of a stretch of a list that begins at `origin`, and stands where the text
before the stretch leads to. -/
structure Fragment.StandsAt (list : Text) (origin : Position) (f : Fragment) (s : Span) : Prop where
  starts : list.isBoundary s.start = true
  stops : list.isBoundary s.stop = true
  text : f.text = Text.between list s.start s.stop
  tight : f.text.Tight
  position : f.position = origin.advance (Text.takeBytes s.start list)

/-- Stretches that follow one another, none of them empty, from byte `first` on. -/
structure Span.Increasing (first : Nat) (spans : List Span) : Prop where
  apart : spans.Pairwise fun s t => s.stop ≤ t.start
  nonempty : ∀ s ∈ spans, first ≤ s.start ∧ s.start < s.stop

theorem Fragment.standsAt (origin : Position) (before : Text) {text : Text} (h : text.Tight)
    (rest : Text) :
    StandsAt (before ++ (text ++ rest)) origin ⟨text, origin.advance before⟩
      ⟨before.byteSize, (before ++ text).byteSize⟩ where
  starts := Text.isBoundary_append before _
  stops := by
    rw [← List.append_assoc]
    exact Text.isBoundary_append _ _
  text := by rw [Text.byteSize_append, Text.between_append]
  tight := h
  position := by rw [Text.takeBytes_append]

theorem char_of_append {x y u v : Text} {c : Char} (h : x ++ y = u ++ c :: v) :
    (∃ w, x = u ++ c :: w) ∨ ∃ w, u = x ++ w ∧ y = w ++ c :: v := by
  rcases List.append_eq_append_iff.mp h with ⟨w, rfl, hy⟩ | ⟨w, rfl, hv⟩
  · exact .inr ⟨w, rfl, hy⟩
  · cases w with
    | nil => exact .inr ⟨[], by simp, by simpa using hv.symm⟩
    | cons d w =>
      obtain ⟨rfl, -⟩ := List.cons.inj hv
      exact .inl ⟨w, rfl⟩

/-- A span lies before byte `n` or behind it. -/
def Span.Avoids (s : Span) (n : Nat) : Prop :=
  n < s.start ∨ s.stop ≤ n

theorem Holds.exists_spans {origin here : Position} {before t : Text} {fragments : List Fragment}
    (h : Holds here t fragments) (hh : here = origin.advance before) :
    ∃ spans, List.Forall₂ (Fragment.StandsAt (before ++ t) origin) fragments spans ∧
      Span.Increasing before.byteSize spans ∧
      ∀ u c v, t = u ++ c :: v → (∀ s ∈ spans, s.Avoids (before ++ u).byteSize) →
        isFiller c = true := by
  induction h generalizing before with
  | nothing hg =>
    refine ⟨[], .nil, ⟨.nil, List.forall_mem_nil _⟩, ?_⟩
    rintro u c v rfl -
    exact hg c (by simp)
  | @fragment here gap text rest fragments hg ht _ ih =>
    subst hh
    rw [← Position.advance_append] at ih ⊢
    obtain ⟨spans, hf, hi, ho⟩ := @ih (before ++ gap ++ text) (by simp)
    have hlist : before ++ (gap ++ (text ++ rest)) = before ++ gap ++ text ++ rest := by simp
    have hsize : (before ++ gap).byteSize < (before ++ gap ++ text).byteSize := by
      obtain ⟨c, body, rfl, -⟩ := ht.first
      have hc := c.utf8Size_pos
      rw [Text.byteSize_append (before ++ gap), Text.byteSize]
      omega
    have hgap : before.byteSize ≤ (before ++ gap).byteSize := by
      rw [Text.byteSize_append]
      omega
    refine ⟨⟨(before ++ gap).byteSize, (before ++ gap ++ text).byteSize⟩ :: spans, ?_, ?_, ?_⟩
    · rw [hlist]
      refine .cons ?_ hf
      rw [List.append_assoc (before ++ gap)]
      exact Fragment.standsAt origin (before ++ gap) ht rest
    · constructor
      · exact .cons (fun s hs => (hi.nonempty s hs).1) hi.apart
      · intro s hs
        rcases List.mem_cons.mp hs with rfl | hs
        · exact ⟨hgap, hsize⟩
        · obtain ⟨hfirst, hne⟩ := hi.nonempty s hs
          exact ⟨by omega, hne⟩
    · intro u c v he hav
      rcases char_of_append he with ⟨w, rfl⟩ | ⟨inner, rfl, hinner⟩
      · exact hg c (by simp)
      · rcases char_of_append hinner with ⟨w, rfl⟩ | ⟨back, rfl, hback⟩
        · have hs := hav _ List.mem_cons_self
          have hc := c.utf8Size_pos
          simp only [Span.Avoids, Text.byteSize_append, Text.byteSize] at hs
          omega
        · apply ho back c v hback
          intro s hs
          have hs := hav s (List.mem_cons_of_mem _ hs)
          rwa [List.append_assoc, List.append_assoc]

/--
Nothing of a list is lost: its fragments are the texts of stretches of its bytes that follow one
another, each at the place that the list leads to there, and every character outside of the
stretches is a comma or white space.
-/
theorem splitTopLevel_spans {list : Text} {origin : Position} {fragments : List Fragment}
    (h : splitTopLevel list origin = .ok fragments) :
    ∃ spans, List.Forall₂ (Fragment.StandsAt list origin) fragments spans ∧
      Span.Increasing 0 spans ∧
      ∀ before c after, list = before ++ c :: after →
        (∀ s ∈ spans, s.Avoids (Text.byteSize before)) → c = ',' ∨ Text.isBlank c = true := by
  obtain ⟨pieces, hc, rfl⟩ := splitTopLevel_iff_cuts.mp h
  obtain ⟨hn, rfl, -⟩ := cuts_iff.mp hc
  have hh : origin = origin.advance [] := (origin.advance_nil).symm
  obtain ⟨spans, hf, hi, ho⟩ := (holds_ofPieces origin hn).exists_spans hh
  refine ⟨spans, hf, hi, ?_⟩
  intro before c after he hav
  simpa [isFiller] using ho before c after he hav

/-- A letter of two bytes, a line end and a quoted comma. -/
theorem splitTopLevel_spans_of_two_lines :
    splitTopLevel "é ,\n $$a,b$$".toList ⟨4, 10⟩ =
        .ok [⟨"é".toList, ⟨4, 10⟩⟩, ⟨"$$a,b$$".toList, ⟨5, 2⟩⟩] ∧
      ∃ spans, List.Forall₂ (Fragment.StandsAt "é ,\n $$a,b$$".toList ⟨4, 10⟩)
          [⟨"é".toList, ⟨4, 10⟩⟩, ⟨"$$a,b$$".toList, ⟨5, 2⟩⟩] spans ∧
        Span.Increasing 0 spans ∧
        ∀ before c after, "é ,\n $$a,b$$".toList = before ++ c :: after →
          (∀ s ∈ spans, s.Avoids (Text.byteSize before)) → c = ',' ∨ Text.isBlank c = true := by
  have h : splitTopLevel "é ,\n $$a,b$$".toList ⟨4, 10⟩ =
      .ok [⟨"é".toList, ⟨4, 10⟩⟩, ⟨"$$a,b$$".toList, ⟨5, 2⟩⟩] := by cbv
  exact ⟨h, splitTopLevel_spans h⟩

end Bindery

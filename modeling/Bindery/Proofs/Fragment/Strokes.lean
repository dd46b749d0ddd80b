import Bindery.Proofs.Basic.Except
import Bindery.Proofs.Fragment.TopLevel
import Bindery.Proofs.Token.Lexes

namespace Bindery

open Lexeme

/-- A text is one stroke where `rest` follows it. -/
inductive Stroke : Text → Text → Prop
  | quoted {quote : Char} {body rest : Text} : (quote = '\'' ∨ quote = '"') → quote ∉ body →
      Stroke (quote :: (body ++ [quote])) rest
  | dollar {t rest : Text} : Spells .dollarString t rest → Stroke t rest
  | plain {c : Char} {rest : Text} : c ≠ '\'' → c ≠ '"' → (c = '$' → Untagged rest) →
      Stroke [c] rest

/-- The strokes of a whole text. -/
inductive Strokes : Text → List Text → Prop
  | done : Strokes [] []
  | stroke {s rest : Text} {strokes : List Text} : Stroke s rest → Strokes rest strokes →
      Strokes (s ++ rest) (s :: strokes)

theorem Strokes.text_eq {t : Text} {strokes : List Text} (h : Strokes t strokes) :
    t = strokes.flatten := by
  induction h with
  | done => rfl
  | stroke _ _ ih => rw [List.flatten_cons, ← ih]

/-- A stroke is the character `c` alone. -/
def isBare (s : Text) (c : Char) : Bool :=
  s == [c]

theorem isBare_unambiguous : Unambiguous isBare := by
  intro s c d hc hd
  simp only [isBare, beq_iff_eq] at hc hd
  rw [hc] at hd
  exact (List.cons.inj hd).1

namespace Fragment

theorem quotedLength_quote {c : Char} (hc : c = '\'' ∨ c = '"') {t : Text} {n : Nat} :
    quotedLength c t = .ok n ↔ ∃ m, t.findIdx? (· == c) = some m ∧ n = m + 1 := by
  rcases hc with rfl | rfl <;> cases hf : t.findIdx? _ <;> simp [quotedLength, hf, eq_comm]

theorem quotedLength_dollar {t : Text} {m : Nat} (h : dollarTag? t = some m) {n : Nat} :
    quotedLength '$' t = .ok n ↔ dollarBody m t = some n := by
  cases hb : dollarBody m t <;> simp [quotedLength, h, hb]

theorem quotedLength_plain {c : Char} {t : Text} (hs : c ≠ '\'') (hq : c ≠ '"')
    (hd : c = '$' → dollarTag? t = none) : quotedLength c t = .ok 0 := by
  by_cases hc : c = '$'
  · simp [quotedLength, hc, hd hc]
  · simp [quotedLength, hs, hq, hc]

/-- A character is found behind the longest front without it. -/
theorem findIdx?_eq_some_iff {c : Char} {t : Text} {n : Nat} :
    t.findIdx? (· == c) = some n ↔
      ∃ body rest, t = body ++ c :: rest ∧ body.length = n ∧ c ∉ body := by
  constructor
  · intro h
    induction t generalizing n with
    | nil => cases h
    | cons d t ih =>
      by_cases hd : d = c
      · subst hd
        have hn : 0 = n := by simpa [List.findIdx?_cons] using h
        exact ⟨[], t, rfl, hn, by simp⟩
      · simp only [List.findIdx?_cons, beq_eq_false_iff_ne.mpr hd] at h
        obtain ⟨m, hm, rfl⟩ := Option.map_eq_some_iff.mp h
        obtain ⟨body, rest, rfl, rfl, hb⟩ := ih hm
        refine ⟨d :: body, rest, rfl, rfl, ?_⟩
        simp [hb, Ne.symm hd]
  · rintro ⟨body, rest, rfl, rfl, hb⟩
    have hn : body.findIdx? (· == c) = none := by
      rw [List.findIdx?_eq_none_iff]
      intro d hd
      simpa using ne_of_mem_of_not_mem hd hb
    simp [List.findIdx?_append, hn, List.findIdx?_cons]

theorem quotedLength_of_stroke {c : Char} {body rest : Text} (h : Stroke (c :: body) rest) :
    quotedLength c (body ++ rest) = .ok body.length := by
  generalize hs : c :: body = s at h
  cases h with
  | @quoted quote inner _ hq hi =>
    obtain ⟨rfl, rfl⟩ := List.cons.inj hs
    rw [quotedLength_quote hq]
    exact ⟨inner.length, findIdx?_eq_some_iff.mpr ⟨inner, rest, by simp, rfl, hi⟩, by simp⟩
  | dollar hd =>
    subst hs
    obtain ⟨rfl, name, u, hn, hu, hb⟩ := hd.dollarBody_complete
    have ht : dollarTag? (body ++ rest) = some (name.length + 1) := by
      rw [hu, dollarTag?_complete hn]
    rw [quotedLength_dollar ht, hb]
  | plain hs' hq hd =>
    cases hs
    exact quotedLength_plain hs' hq fun hc => dollarTag?_eq_none_iff.mpr (hd hc)

theorem stroke_of_quotedLength {c : Char} {t : Text} {n : Nat} (h : quotedLength c t = .ok n) :
    ∃ body rest, t = body ++ rest ∧ body.length = n ∧ Stroke (c :: body) rest := by
  by_cases hq : c = '\'' ∨ c = '"'
  · obtain ⟨m, hm, rfl⟩ := (quotedLength_quote hq).mp h
    obtain ⟨body, rest, rfl, rfl, hb⟩ := findIdx?_eq_some_iff.mp hm
    exact ⟨body ++ [c], rest, by simp, by simp, .quoted hq hb⟩
  · obtain ⟨hs, hd⟩ := not_or.mp hq
    by_cases hc : c = '$' ∧ ∃ m, dollarTag? t = some m
    · obtain ⟨rfl, m, hm⟩ := hc
      obtain ⟨name, rest, rfl, rfl, hn⟩ := dollarTag?_sound hm
      obtain ⟨body, after, ht, hl, hb⟩ := dollarBody_sound hn ((quotedLength_dollar hm).mp h)
      exact ⟨body, after, ht, hl, .dollar hb⟩
    · have ht : c = '$' → dollarTag? t = none := by
        intro he
        rw [Option.eq_none_iff_forall_ne_some]
        exact fun m hm => hc ⟨he, m, hm⟩
      rw [quotedLength_plain hs hd ht] at h
      cases h
      exact ⟨[], t, rfl, rfl, .plain hs hd fun he => dollarTag?_eq_none_iff.mp (ht he)⟩

end Fragment

theorem Stroke.exists_cons {s rest : Text} (h : Stroke s rest) : ∃ c body, s = c :: body := by
  cases h with
  | quoted => exact ⟨_, _, rfl⟩
  | dollar h => exact h.exists_cons
  | plain => exact ⟨_, _, rfl⟩

/-- A stroke that no quote and no dollar sign begins is a character alone. -/
theorem Stroke.body_eq_nil {c : Char} {body rest : Text} (h : Stroke (c :: body) rest)
    (hc : c ≠ '\'' ∧ c ≠ '"' ∧ c ≠ '$') : body = [] := by
  generalize hs : c :: body = s at h
  cases h with
  | quoted hq _ =>
    obtain ⟨rfl, _⟩ := List.cons.inj hs
    rcases hq with hq | hq
    · exact absurd hq hc.1
    · exact absurd hq hc.2.1
  | dollar h =>
    subst hs
    exact absurd h.dollarBody_complete.1 hc.2.2
  | plain _ _ _ => exact (List.cons.inj hs).2

theorem Stroke.isBare_iff {c e : Char} {body rest : Text} (h : Stroke (c :: body) rest)
    (he : e ≠ '\'' ∧ e ≠ '"' ∧ e ≠ '$') : isBare (c :: body) e = true ↔ c = e := by
  rw [isBare, beq_iff_eq, List.cons.injEq, and_iff_left_iff_imp]
  rintro rfl
  exact h.body_eq_nil he

theorem Stroke.read? {c : Char} {body rest : Text} (h : Stroke (c :: body) rest) (d : Nesting) :
    d.read? isBare (c :: body) = d.next? c := by
  have hq : ∀ e ∈ bracketChars, e ≠ '\'' ∧ e ≠ '"' ∧ e ≠ '$' := by
    simp [bracketChars]
  by_cases hc : c ∈ bracketChars
  · exact Nesting.read?_of_bracket isBare_unambiguous hc ((h.isBare_iff (hq c hc)).mpr rfl) d
  · have hn : ∀ e ∈ bracketChars, isBare (c :: body) e = false := by
      intro e he
      rw [Bool.eq_false_iff]
      intro hb
      exact hc ((h.isBare_iff (hq e he)).mp hb ▸ he)
    rw [Nesting.read?_of_not_bracket hn, Nesting.next?_of_not_bracket hc]

theorem cutRun_stroke {c : Char} {body rest : Text} (h : Stroke (c :: body) rest) (d : Nesting)
    (strokes : List Text) :
    cutRun isBare id d ((c :: body) :: strokes) =
      if c = ',' ∧ d.isTop then (cutRun isBare id d strokes).map ([] :: ·)
      else (d.next? c).bind fun inner =>
        (cutRun isBare id inner strokes).map (Fragment.attach (c :: body)) := by
  have hc : isBare (c :: body) ',' = true ↔ c = ',' := h.isBare_iff (by decide)
  simp only [cutRun, hc, h.read?, id_eq]

namespace Fragment

theorem cut_stroke {c : Char} {body rest : Text} (h : Stroke (c :: body) rest) (origin : Position)
    (quoted : Text) (here : Position) (d : Nesting) :
    cut origin quoted here d (c :: body ++ rest) =
      if c = ',' ∧ d.isTop then (cut origin quoted (here.next c) d (body ++ rest)).map ([] :: ·)
      else match d.next? c with
        | none => .error (.unbalanced here quoted)
        | some inner => (cut origin quoted (here.advance (c :: body)) inner rest).map
            (attach (c :: body)) := by
  rw [List.cons_append, cut]
  split
  · cases cut origin quoted (here.next c) d (body ++ rest) <;> rfl
  · rw [quotedLength_of_stroke h]
    simp only [List.take_left, List.drop_left]
    cases d.next? c with
    | none => rfl
    | some inner =>
      cases cut origin quoted (here.advance (c :: body)) inner rest <;> rfl

/-- On the strokes of a text, cutting counts brackets stroke by stroke. -/
theorem cut_eq_ok_iff_cutRun {t : Text} {strokes pieces : List Text} (h : Strokes t strokes)
    (origin : Position) (quoted : Text) (here : Position) (d : Nesting) :
    cut origin quoted here d t = .ok pieces ↔ cutRun isBare id d strokes = some pieces := by
  induction h generalizing here d pieces with
  | done =>
    rw [cut, cutRun]
    split <;> simp
  | @stroke s rest strokes hs _ ih =>
    obtain ⟨c, body, rfl⟩ := hs.exists_cons
    rw [cut_stroke hs, cutRun_stroke hs]
    split
    · rename_i hc
      have hb : body = [] := hs.body_eq_nil (by rw [hc.1]; decide)
      subst hb
      simp only [List.nil_append, map_eq_ok_iff, Option.map_eq_some_iff, ih]
    · cases d.next? c with
      | none => simp
      | some inner => simp only [Option.bind_some, map_eq_ok_iff, Option.map_eq_some_iff, ih]

theorem exists_strokes {origin here : Position} {quoted t : Text} {d : Nesting}
    {pieces : List Text} (h : cut origin quoted here d t = .ok pieces) :
    ∃ strokes, Strokes t strokes := by
  induction hn : t.length using Nat.strongRecOn generalizing t here d pieces with
  | ind n ih =>
    cases t with
    | nil => exact ⟨[], .done⟩
    | cons c t =>
      cases hq : quotedLength c t with
      | error construct =>
        rw [cut] at h
        split at h
        · rename_i hc
          rw [hc.1, quotedLength_plain (by decide) (by decide) (by simp)] at hq
          cases hq
        · rw [hq] at h
          cases h
      | ok m =>
        obtain ⟨body, rest, rfl, rfl, hs⟩ := stroke_of_quotedLength hq
        have hl : rest.length < n := by
          rw [← hn, List.length_cons, List.length_append]
          omega
        have hr : ∃ here d pieces, cut origin quoted here d rest = .ok pieces := by
          rw [← List.cons_append, cut_stroke hs] at h
          split at h
          · rename_i hc
            have hb : body = [] := hs.body_eq_nil (by rw [hc.1]; decide)
            subst hb
            obtain ⟨more, hm, _⟩ := map_eq_ok_iff.mp h
            exact ⟨_, _, _, hm⟩
          · split at h
            · cases h
            · obtain ⟨more, hm, _⟩ := map_eq_ok_iff.mp h
              exact ⟨_, _, _, hm⟩
        obtain ⟨here', d', pieces', hr⟩ := hr
        obtain ⟨strokes, hx⟩ := ih _ hl hr rfl
        exact ⟨(c :: body) :: strokes, .stroke hs hx⟩

end Fragment

theorem flatMap_id_eq_flatten : (List.flatMap id : List Text → Text) = List.flatten := by
  funext run
  exact List.flatMap_id

theorem cutRun_strokes_iff {strokes pieces : List Text} :
    cutRun isBare id {} strokes = some pieces ↔ BracketsMatch isBare strokes ∧
      pieces = (topRuns isBare [] strokes).map List.flatten := by
  rw [cutRun_top_iff isBare_unambiguous, flatMap_id_eq_flatten]

/-- A list splits exactly if it has strokes whose brackets match, at their top-level commas. -/
theorem splitTopLevel_eq_ok_iff {list : Text} {origin : Position} {fragments : List Fragment} :
    splitTopLevel list origin = .ok fragments ↔
      ∃ strokes, Strokes list strokes ∧ BracketsMatch isBare strokes ∧
        fragments = Fragment.ofPieces origin ((topRuns isBare [] strokes).map List.flatten) := by
  have hs : splitTopLevel list origin =
      (Fragment.cut origin (snippet list) origin {} list).map (Fragment.ofPieces origin) := by
    rw [splitTopLevel]
    cases Fragment.cut origin (snippet list) origin {} list <;> rfl
  rw [hs, map_eq_ok_iff]
  constructor
  · rintro ⟨pieces, hc, rfl⟩
    obtain ⟨strokes, hx⟩ := Fragment.exists_strokes hc
    rw [Fragment.cut_eq_ok_iff_cutRun hx, cutRun_strokes_iff] at hc
    exact ⟨strokes, hx, hc.1, by rw [hc.2]⟩
  · rintro ⟨strokes, hx, hb, rfl⟩
    refine ⟨_, ?_, rfl⟩
    rw [Fragment.cut_eq_ok_iff_cutRun hx, cutRun_strokes_iff]
    exact ⟨hb, rfl⟩

end Bindery

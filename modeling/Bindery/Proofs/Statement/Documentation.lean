import Bindery.Proofs.Statement.Joining
import Bindery.Proofs.Token.Tiling
import Mathlib.Data.List.Induction

namespace Bindery

namespace Token

def endsLine (t : Token) : Bool :=
  t.kind == .whitespace && decide (0 < Text.newlines t.text)

def leavesLine (t : Token) : Bool :=
  t.kind == .whitespace && decide (1 < Text.newlines t.text)

/--
A comment that documents what follows its gap: a line ends before it, or the gap is that at the
start of the source, and no blank line is left behind it.
-/
def documents (atStart : Bool) (before : List Token) (t : Token) (after : List Token) : Bool :=
  t.kind == .comment && (atStart || before.any endsLine) && !after.any leavesLine

theorem documents_concat (atStart : Bool) (before : List Token) (t : Token) (after : List Token)
    (u : Token) :
    t.documents atStart before (after ++ [u]) =
      (!u.leavesLine && t.documents atStart before after) := by
  rw [documents, documents, List.any_append, List.any_cons, List.any_nil, Bool.or_false,
    Bool.not_or, ← Bool.and_assoc, Bool.and_comm]

end Token

/-- The comments of a gap that document what follows it, in order. -/
def docComments (atStart : Bool) (gap : List Token) : List Text :=
  (gap.zipIdx.filter fun x => x.1.documents atStart (gap.take x.2) (gap.drop (x.2 + 1))).map
    fun x => x.1.text

/-- A further token of a gap takes all comments away if it is a blank line, or documents itself. -/
theorem docComments_concat (atStart : Bool) (gap : List Token) (t : Token) :
    docComments atStart (gap ++ [t]) = (if t.leavesLine then [] else docComments atStart gap) ++
      if t.documents atStart gap [] then [t.text] else [] := by
  have hlast : (gap ++ [t]).zipIdx = gap.zipIdx ++ [(t, gap.length)] := by
    rw [List.zipIdx_append, List.zipIdx_singleton, Nat.zero_add]
  have hfront : (gap.zipIdx.filter fun x => x.1.documents atStart ((gap ++ [t]).take x.2)
        ((gap ++ [t]).drop (x.2 + 1))) =
      gap.zipIdx.filter fun x => !t.leavesLine &&
        x.1.documents atStart (gap.take x.2) (gap.drop (x.2 + 1)) := by
    apply List.filter_congr
    intro x hx
    have hi : x.2 < gap.length := by simpa using List.snd_lt_of_mem_zipIdx hx
    rw [List.take_append_of_le_length (Nat.le_of_lt hi), List.drop_append_of_le_length hi,
      Token.documents_concat]
  rw [docComments, hlast, List.filter_append, List.map_append, hfront]
  congr 1
  · split
    · rename_i h
      simp [h]
    · rename_i h
      simp [h, docComments]
  · rw [List.filter_singleton, List.take_left, List.drop_eq_nil_of_le (by simp)]
    cases t.documents atStart gap [] <;> rfl

/-- As long as no line has ended behind code, there is nothing that documents. -/
theorem docComments_eq_nil {gap : List Token} (h : gap.any Token.endsLine = false) :
    docComments false gap = [] := by
  induction gap using List.reverseRecOn with
  | nil => rfl
  | append_singleton gap t ih =>
    rw [List.any_append, Bool.or_eq_false_iff] at h
    rw [docComments_concat, ih h.1, ite_self, Token.documents, h.1]
    simp

namespace Segmenter

/-- Where the segmenter stands inside of a gap, `gap` being what it has read of it. -/
def inGap (atStart : Bool) (gap : List Token) : Segmenter :=
  .between (docComments atStart gap) (!(atStart || gap.any Token.endsLine))

/-- White space and comments leave the segmenter in the gap, which is longer by the token read. -/
theorem read_inGap {t : Token} (h : t.isTrivia = true) (atStart : Bool) (gap : List Token) :
    (inGap atStart gap).read t = .ok (inGap atStart (gap ++ [t]), none) := by
  simp only [Token.isTrivia, Bool.or_eq_true, beq_iff_eq] at h
  have hline : (atStart || (gap ++ [t]).any Token.endsLine) =
      (atStart || gap.any Token.endsLine || t.endsLine) := by
    simp [Bool.or_assoc]
  rw [inGap, inGap, docComments_concat, hline]
  rcases h with h | h
  · have hl : t.leavesLine = decide (Text.newlines t.text > 1) := by simp [Token.leavesLine, h]
    have he : t.endsLine = !Text.newlines t.text == 0 := by
      rw [Token.endsLine, h, Bool.eq_iff_iff]
      simp [Nat.pos_iff_ne_zero]
    have hd : t.documents atStart gap [] = false := by simp [Token.documents, h]
    rw [read_whitespace h, hl, he, hd]
    simp
  · have hw : t.kind ≠ .whitespace := by simp [h]
    have hl : t.leavesLine = false := by simp [Token.leavesLine, h]
    have he : t.endsLine = false := by simp [Token.endsLine, h]
    have hd : t.documents atStart gap [] = (atStart || gap.any Token.endsLine) := by
      simp [Token.documents, h]
    rw [read, if_neg hw, if_pos h, hl, he, hd, Bool.or_false]
    cases ha : atStart || gap.any Token.endsLine with
    | true => rfl
    | false =>
      rw [Bool.or_eq_false_iff] at ha
      rw [ha.1, docComments_eq_nil ha.2]
      rfl

end Segmenter

def EndsStatement (before : List Token) : Prop :=
  ∀ t, before.getLast? = some t → t.isSymbol ';' = true

/--
A place where a statement begins: the tokens before it, the gap of white space and comments, and its
first token of code.
-/
structure Opening (tokens : List Token) where
  before : List Token
  gap : List Token
  first : Token
  after : List Token
  tokens_eq : tokens = before ++ gap ++ first :: after
  before_ends : EndsStatement before
  trivia : ∀ t ∈ gap, t.isTrivia = true
  code : first.isTrivia = false
  not_semicolon : first.isSymbol ';' = false

namespace Opening

variable {tokens : List Token}

def comments (o : Opening tokens) : List Text :=
  docComments o.before.isEmpty o.gap

def extend (o : Opening tokens) (more : List Token) : Opening (tokens ++ more) where
  before := o.before
  gap := o.gap
  first := o.first
  after := o.after ++ more
  tokens_eq := by simp [o.tokens_eq]
  before_ends := o.before_ends
  trivia := o.trivia
  code := o.code
  not_semicolon := o.not_semicolon

end Opening

/-- The statement begins at a place of its own and has the documentation of the gap there. -/
def Documented (tokens : List Token) (s : Statement) : Prop :=
  ∃ o : Opening tokens, o.first.position = s.position ∧ s.doc = Doc.clean? o.comments

theorem Documented.append {tokens : List Token} {s : Statement} (h : Documented tokens s)
    (more : List Token) : Documented (tokens ++ more) s := by
  obtain ⟨o, hp, hd⟩ := h
  exact ⟨o.extend more, hp, hd⟩

/-- Where the segmenter stands behind the tokens it has read. -/
inductive Tracks : List Token → Segmenter → Prop
  | between {before gap : List Token} : EndsStatement before →
      (∀ t ∈ gap, t.isTrivia = true) → Tracks (before ++ gap) (.inGap before.isEmpty gap)
  | inside {tokens : List Token} {p : Pending} (o : Opening tokens) :
      p.position = o.first.position → p.doc = Doc.clean? o.comments → Tracks tokens (.inside p)

theorem tracks_start : Tracks [] (.between [] false) :=
  @Tracks.between [] [] (by simp [EndsStatement]) (by simp)

theorem tracks_semicolon (tokens : List Token) {t : Token} (h : t.isSymbol ';' = true) :
    Tracks (tokens ++ [t]) (.between [] true) := by
  have hb : EndsStatement (tokens ++ [t]) := by
    intro u hu
    rw [List.getLast?_concat] at hu
    cases hu
    exact h
  have ht := @Tracks.between _ [] hb (by simp)
  have he : (tokens ++ [t]).isEmpty = false := by simp
  rwa [he, List.append_nil] at ht

theorem Pending.read_keeps {p q : Pending} {t : Token} (h : p.read t = .ok q) :
    q.position = p.position ∧ q.doc = p.doc := by
  simp only [read] at h
  split at h
  · cases h
    exact ⟨rfl, rfl⟩
  · split at h
    · split at h
      · cases h
      · cases h
        exact ⟨rfl, rfl⟩
    · cases h
      exact ⟨rfl, rfl⟩

theorem Pending.finish_keeps {p : Pending} {ending : Text} {s : Statement}
    (h : p.finish ending = .ok s) : s.position = p.position ∧ s.doc = p.doc := by
  rw [finish] at h
  split at h
  · cases h
  · cases h
    exact ⟨rfl, rfl⟩

theorem Tracks.first {before gap : List Token} {t : Token} {p : Pending}
    (hb : EndsStatement before) (hg : ∀ u ∈ gap, u.isTrivia = true) (ht : t.isTrivia = false)
    (hs : t.isSymbol ';' = false)
    (hp : (Pending.start t (docComments before.isEmpty gap)).read t = .ok p) :
    Tracks (before ++ gap ++ [t]) (.inside p) := by
  let o : Opening (before ++ gap ++ [t]) := ⟨before, gap, t, [], rfl, hb, hg, ht, hs⟩
  have hc : o.comments = docComments before.isEmpty gap := rfl
  obtain ⟨hpos, hdoc⟩ := Pending.read_keeps hp
  refine .inside o hpos ?_
  rw [hdoc, hc, Pending.start]

namespace Tracks

/-- In a gap a token finishes nothing; it belongs to the gap, ends it or begins a statement. -/
theorem read_between {before gap : List Token} {next : Segmenter} {t : Token}
    {done : Option Statement} (hb : EndsStatement before) (hg : ∀ u ∈ gap, u.isTrivia = true)
    (hr : (Segmenter.inGap before.isEmpty gap).read t = .ok (next, done)) :
    Tracks (before ++ gap ++ [t]) next ∧ done = none := by
  cases ht : t.isTrivia with
  | true =>
    rw [Segmenter.read_inGap ht] at hr
    cases hr
    refine ⟨?_, rfl⟩
    rw [List.append_assoc]
    refine .between hb ?_
    intro u hu
    rcases List.mem_append.mp hu with hu | hu
    · exact hg u hu
    · rwa [List.mem_singleton.mp hu]
  | false =>
    have hk := ht
    simp only [Token.isTrivia, Bool.or_eq_false_iff, beq_eq_false_iff_ne, ne_eq] at hk
    rw [Segmenter.inGap, Segmenter.read, if_neg hk.1, if_neg hk.2] at hr
    split at hr
    · rename_i hs
      cases hr
      exact ⟨tracks_semicolon _ hs, rfl⟩
    · rename_i hs
      cases hp : (Pending.start t (docComments before.isEmpty gap)).read t with
      | error e =>
        rw [hp] at hr
        cases hr
      | ok p =>
        rw [hp] at hr
        cases hr
        exact ⟨.first hb hg ht (by simpa using hs) hp, rfl⟩

/-- Inside a statement a token goes on with it, or finishes it with the documentation it has. -/
theorem read_inside {tokens : List Token} {p : Pending} {next : Segmenter} {t : Token}
    {done : Option Statement} (o : Opening tokens) (hpos : p.position = o.first.position)
    (hdoc : p.doc = Doc.clean? o.comments)
    (hr : (Segmenter.inside p).read t = .ok (next, done)) :
    Tracks (tokens ++ [t]) next ∧ ∀ s ∈ done.toList, Documented tokens s := by
  rw [Segmenter.read] at hr
  split at hr
  · rename_i hs
    cases hf : p.finish t.text with
    | error e =>
      rw [hf] at hr
      cases hr
    | ok statement =>
      rw [hf] at hr
      cases hr
      obtain ⟨hp, hd⟩ := Pending.finish_keeps hf
      have hdone : Documented tokens statement := ⟨o, by rw [hp, hpos], by rw [hd, hdoc]⟩
      exact ⟨tracks_semicolon _ hs, List.forall_mem_singleton.mpr hdone⟩
  · cases hq : p.read t with
    | error e =>
      rw [hq] at hr
      cases hr
    | ok q =>
      rw [hq] at hr
      cases hr
      obtain ⟨hp, hd⟩ := Pending.read_keeps hq
      refine ⟨.inside (o.extend [t]) ?_ ?_, List.forall_mem_nil _⟩
      · rw [hp, hpos]
        rfl
      · rw [hd, hdoc]
        rfl

/-- One token: the segmenter stands where it should, and what it finishes is documented. -/
theorem read {tokens : List Token} {s next : Segmenter} {t : Token} {done : Option Statement}
    (h : Tracks tokens s) (hr : s.read t = .ok (next, done)) :
    Tracks (tokens ++ [t]) next ∧ ∀ s ∈ done.toList, Documented tokens s := by
  cases h with
  | between hb hg =>
    obtain ⟨hn, rfl⟩ := read_between hb hg hr
    exact ⟨hn, List.forall_mem_nil _⟩
  | inside o hpos hdoc => exact read_inside o hpos hdoc hr

/-- All tokens: whatever is finished on the way or at the end is documented. -/
theorem statements {before tokens : List Token} {s : Segmenter} {ss : List Statement}
    (h : Tracks before s) (hs : s.statements tokens = .ok ss) :
    ∀ statement ∈ ss, Documented (before ++ tokens) statement := by
  induction tokens generalizing before s ss with
  | nil =>
    cases h with
    | between hb hg =>
      cases hs
      exact List.forall_mem_nil _
    | inside o hpos hdoc =>
      obtain ⟨-, rfl⟩ := Segmenter.closed_of_statements_nil hs
      exact List.forall_mem_singleton.mpr (Documented.append ⟨o, hpos.symm, hdoc⟩ [])
  | cons t tokens ih =>
    cases hr : s.read t with
    | error e =>
      rw [Segmenter.statements_error hr] at hs
      cases hs
    | ok read =>
      obtain ⟨next, done⟩ := read
      obtain ⟨hn, hdone⟩ := h.read hr
      have hmore : ∀ more, next.statements tokens = .ok more →
          ∀ statement ∈ more, Documented (before ++ t :: tokens) statement := by
        intro more hm
        have hi := ih hn hm
        rwa [List.append_assoc, List.singleton_append] at hi
      cases done with
      | none =>
        rw [Segmenter.statements_none hr] at hs
        exact hmore ss hs
      | some statement =>
        rw [Segmenter.statements_some hr] at hs
        cases hm : next.statements tokens with
        | error e =>
          rw [hm] at hs
          cases hs
        | ok more =>
          rw [hm] at hs
          cases hs
          rw [List.forall_mem_cons]
          exact ⟨(hdone statement (by simp)).append (t :: tokens), hmore more hm⟩

end Tracks

namespace Opening

variable {tokens : List Token}

theorem eq_nil_of_endsStatement {before more : List Token} (h : EndsStatement (before ++ more))
    (ht : ∀ t ∈ more, t.isTrivia = true) : more = [] := by
  rcases List.eq_nil_or_concat more with rfl | ⟨front, t, rfl⟩
  · rfl
  · have hs := h t (by simp)
    rw [Token.isSymbol_of_trivia (ht t (by simp))] at hs
    cases hs

/-- The gap reaches back to the last semicolon, so both are settled by the tokens they hold. -/
theorem before_gap_eq {before before' gap gap' : List Token} (hb : EndsStatement before)
    (hb' : EndsStatement before') (hg : ∀ t ∈ gap, t.isTrivia = true)
    (hg' : ∀ t ∈ gap', t.isTrivia = true) (he : before ++ gap = before' ++ gap') :
    before = before' ∧ gap = gap' := by
  rcases List.append_eq_append_iff.mp he with ⟨more, rfl, rfl⟩ | ⟨more, rfl, rfl⟩
  · have hm := eq_nil_of_endsStatement hb' fun t ht => hg t (List.mem_append_left _ ht)
    simp [hm]
  · have hm := eq_nil_of_endsStatement hb fun t ht => hg' t (List.mem_append_left _ ht)
    simp [hm]

theorem comments_eq {source : Text} {origin : Position} (h : Tiles source origin tokens)
    (o o' : Opening tokens) (hp : o.first.position = o'.first.position) :
    o.comments = o'.comments := by
  have he := o.tokens_eq.symm.trans o'.tokens_eq
  rw [o.tokens_eq] at h
  have hb := h.before_eq he hp
  obtain ⟨hbefore, hgap⟩ := before_gap_eq o.before_ends o'.before_ends o.trivia o'.trivia hb
  rw [comments, comments, hbefore, hgap]

end Opening

/--
Documentation belongs to one statement. Every statement of a source begins at one of its openings,
and its documentation is that of the comments in the gap there: those behind the end of a line, or
at the start of the source, with no blank line behind them.
-/
theorem segment_docs {source : Text} {statements : List Statement}
    (h : segment source = .ok statements) :
    ∃ tokens, tokenize source .start = .ok tokens ∧ ∀ s ∈ statements,
      (∃ o : Opening tokens, o.first.position = s.position) ∧
      ∀ o : Opening tokens, o.first.position = s.position → s.doc = Doc.clean? o.comments := by
  cases ht : tokenize source .start with
  | error e =>
    rw [segment, ht] at h
    cases h
  | ok tokens =>
    rw [segment, ht] at h
    have hd : ∀ s ∈ statements, Documented tokens s := tracks_start.statements h
    have htiles := (tokenize_eq_ok_iff.mp ht).tiles
    refine ⟨tokens, rfl, ?_⟩
    intro s hs
    obtain ⟨o, hp, hdoc⟩ := hd s hs
    refine ⟨⟨o, hp⟩, ?_⟩
    intro o' hp'
    rw [hdoc, o.comments_eq htiles o' (hp.trans hp'.symm)]

/-- Comments behind code, before an empty statement and before a blank line; two that document. -/
def commentedSource : Text :=
  "a; /* of\n a */ -- a\n-- none\n;\n-- old\n\n/* b, */ -- too\nb"

theorem segment_docs_of_two :
    segment commentedSource = .ok
      [⟨['a'], ⟨1, 1⟩, none⟩, ⟨['b'], ⟨8, 1⟩, some " b,\ntoo".toList⟩] ∧
    ∃ tokens, tokenize commentedSource .start = .ok tokens ∧
      (∃ o : Opening tokens, o.first.position = ⟨8, 1⟩) ∧
      ∀ o : Opening tokens, o.first.position = ⟨8, 1⟩ →
        some " b,\ntoo".toList = Doc.clean? o.comments := by
  have hs : segment commentedSource = .ok
      [⟨['a'], ⟨1, 1⟩, none⟩, ⟨['b'], ⟨8, 1⟩, some " b,\ntoo".toList⟩] := by
    decide +kernel
  obtain ⟨tokens, ht, hd⟩ := segment_docs hs
  exact ⟨hs, tokens, ht, hd ⟨['b'], ⟨8, 1⟩, some " b,\ntoo".toList⟩ (by simp)⟩

end Bindery

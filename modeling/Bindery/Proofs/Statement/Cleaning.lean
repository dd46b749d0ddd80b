import Bindery.Proofs.Text.Cut
import Bindery.Proofs.Text.Lines
import Bindery.Proofs.Token.Lexes
import Bindery.Statement.Doc

namespace Bindery

open Text (Trimmed Stops)

namespace Doc

theorem trimmed_commentLines {comment l : Text} (h : l ∈ commentLines comment) : Trimmed l := by
  unfold commentLines at h
  split at h
  · rw [List.mem_singleton.mp h]
    exact Text.trimmed_trimEnd _
  · obtain ⟨line, -, rfl⟩ := List.mem_map.mp h
    split <;> exact Text.trimmed_trimEnd _

theorem newline_not_mem_commentLines {comment l : Text}
    (hc : ∀ rest, Text.dropFront? "--" comment = some rest → '\n' ∉ rest)
    (h : l ∈ commentLines comment) : '\n' ∉ l := by
  unfold commentLines at h
  split at h
  · rename_i rest hr
    rw [List.mem_singleton.mp h]
    intro hn
    exact hc rest hr ((Text.dropFront?_sublist _ _).subset ((Text.trimEnd_sublist _).subset hn))
  · obtain ⟨line, hl, rfl⟩ := List.mem_map.mp h
    have hline := Text.newline_not_mem_lines hl
    intro hn
    split at hn
    · rename_i rest hr
      have hs : rest.Sublist line := by
        have hd := Text.dropFront?_sublist "*" (Text.trimStart line)
        rw [hr] at hd
        exact hd.trans (List.dropWhile_sublist _)
      exact hline (hs.subset ((Text.dropFront?_sublist _ _).subset
        ((Text.trimEnd_sublist _).subset hn)))
    · exact hline ((Text.trimEnd_sublist _).subset hn)

theorem newline_not_mem_of_token {t : Token} (hk : t.kind = .comment) (hp : t.Proper) {l : Text}
    (h : l ∈ commentLines t.text) : '\n' ∉ l := by
  apply newline_not_mem_commentLines _ h
  obtain ⟨kind, text, offset, position⟩ := t
  obtain ⟨rest, hs⟩ := hp
  cases hk
  intro body hb
  cases hs with
  | lineComment ht _ =>
    cases hb
    exact ht
  | blockComment _ => cases hb

theorem dedent_suffix (indent : Nat) (line : Text) : dedent indent line <:+ line := by
  unfold dedent
  split_ifs
  · exact List.nil_suffix
  · exact Text.dropBytes_suffix indent line
  · exact List.dropWhile_suffix _

theorem dedent_indentOf {line : Text} (h : Text.isBlankText line = false) :
    dedent (indentOf line) line = Text.trimStart line := by
  have hl : line.takeWhile Text.isBlank ++ Text.trimStart line = line :=
    List.takeWhile_append_dropWhile
  have hb := Text.isBoundary_append (line.takeWhile Text.isBlank) (Text.trimStart line)
  have hd := Text.dropBytes_append (line.takeWhile Text.isBlank) (Text.trimStart line)
  rw [hl, ← indentOf] at hb hd
  rw [dedent, h, if_neg (by decide), if_pos hb, hd]

theorem exists_dedent_eq {lines : List Text} (h : ∃ l ∈ lines, Text.isBlankText l = false) :
    ∃ l ∈ lines, Text.isBlankText l = false ∧
      dedent (commonIndent lines) l = Text.trimStart l := by
  obtain ⟨l, hl, hb⟩ := h
  have hn : ((lines.filter fun line => !Text.isBlankText line).map indentOf) ≠ [] :=
    List.ne_nil_of_mem (List.mem_map_of_mem (List.mem_filter.mpr ⟨hl, by simp [hb]⟩))
  obtain ⟨indent, hi⟩ := Option.isSome_iff_exists.mp (List.isSome_min?_of_ne_nil hn)
  obtain ⟨least, hm, rfl⟩ := List.mem_map.mp (List.min?_mem hi)
  obtain ⟨hmem, hfull⟩ := List.mem_filter.mp hm
  have hfull : Text.isBlankText least = false := by simpa using hfull
  refine ⟨least, hmem, hfull, ?_⟩
  rw [commonIndent, hi, Option.getD_some, dedent_indentOf hfull]

theorem commonIndent_eq_zero {lines : List Text}
    (h : ∃ l ∈ lines, Text.isBlankText l = false ∧ Stops Text.isBlank l) :
    commonIndent lines = 0 := by
  obtain ⟨l, hl, hb, hs⟩ := h
  have hz : indentOf l = 0 := by
    have ht : l.takeWhile Text.isBlank = [] := Text.takeWhile_eq (List.forall_mem_nil _) hs
    rw [indentOf, ht]
    rfl
  have hm : 0 ∈ (lines.filter fun line => !Text.isBlankText line).map indentOf :=
    hz ▸ List.mem_map_of_mem (List.mem_filter.mpr ⟨hl, by simp [hb]⟩)
  have hmin : ((lines.filter fun line => !Text.isBlankText line).map indentOf).min? = some 0 :=
    List.min?_eq_some_iff.mpr ⟨hm, fun n _ => Nat.zero_le n⟩
  rw [commonIndent, hmin, Option.getD_some]

theorem dedent_zero {line : Text} (h : Trimmed line) : dedent 0 line = line := by
  rw [dedent, h.isBlankText_eq]
  split
  · rename_i he
    exact (List.isEmpty_iff.mp he).symm
  · rw [Text.isBoundary, if_pos rfl, Text.dropBytes]

/--
Documentation as it is kept: the first and the last line are not blank, no line ends in white space,
and some line that is not blank begins without any.
-/
structure IsClean (d : Text) : Prop where
  first : ∃ l, (d.splitOn '\n').head? = some l ∧ Text.isBlankText l = false
  last : ∃ l, (d.splitOn '\n').getLast? = some l ∧ Text.isBlankText l = false
  ends : ∀ l ∈ d.splitOn '\n', Trimmed l
  margin : ∃ l ∈ d.splitOn '\n', Text.isBlankText l = false ∧ Stops Text.isBlank l

theorem isClean_join {ls : List Text} (hn : ∀ l ∈ ls, '\n' ∉ l) (ht : ∀ l ∈ ls, Trimmed l)
    (hm : ∃ l ∈ ls, l ≠ [] ∧ Stops Text.isBlank l) :
    IsClean (Text.join "\n" (Text.innerLines ls)) := by
  obtain ⟨l, hl, hne, hs⟩ := hm
  have hinner := Text.mem_innerLines hl hne
  have hlines : (Text.join "\n" (Text.innerLines ls)).splitOn '\n' = Text.innerLines ls :=
    Text.splitOn_join (fun m hm => hn m (Text.innerLines_subset ls hm)) (List.ne_nil_of_mem hinner)
  have hfull : ∀ m ∈ Text.innerLines ls, m ≠ [] → Text.isBlankText m = false := by
    intro m hm hne
    rw [(ht m (Text.innerLines_subset ls hm)).isBlankText_eq]
    simpa using hne
  constructor
  · rw [hlines]
    obtain ⟨first, rest, he⟩ := List.exists_cons_of_ne_nil (List.ne_nil_of_mem hinner)
    have hf : (Text.innerLines ls).head? = some first := by rw [he]; rfl
    exact ⟨first, hf, hfull first (List.mem_of_head? hf) (Text.head?_innerLines hf)⟩
  · rw [hlines]
    have hl := List.getLast?_eq_some_getLast (List.ne_nil_of_mem hinner)
    exact ⟨_, hl, hfull _ (List.mem_of_getLast? hl) (Text.getLast?_innerLines hl)⟩
  · rw [hlines]
    exact fun m hm => ht m (Text.innerLines_subset ls hm)
  · rw [hlines]
    exact ⟨l, hinner, hfull l hinner hne, hs⟩

theorem exists_full {lines : List Text} {indent : Nat}
    (h : ¬ Text.isBlankText (Text.join "\n" (Text.innerLines (lines.map (dedent indent)))) = true) :
    ∃ l ∈ lines, Text.isBlankText l = false := by
  cases hi : Text.innerLines (lines.map (dedent indent)) with
  | nil =>
    rw [hi] at h
    exact absurd rfl h
  | cons first rest =>
    have hf : (Text.innerLines (lines.map (dedent indent))).head? = some first := by
      rw [hi]
      rfl
    obtain ⟨line, hm, he⟩ := List.mem_map.mp (Text.innerLines_subset _ (List.mem_of_head? hf))
    refine ⟨line, hm, ?_⟩
    rw [Bool.eq_false_iff]
    intro hb
    exact Text.head?_innerLines hf (by rw [← he, dedent, if_pos hb])

theorem isClean_of_clean? {comments : List Text} {d : Text}
    (hn : ∀ l ∈ comments.flatMap commentLines, '\n' ∉ l) (h : clean? comments = some d) :
    IsClean d := by
  have ht : ∀ l ∈ comments.flatMap commentLines, Trimmed l := by
    intro l hl
    obtain ⟨comment, -, hc⟩ := List.mem_flatMap.mp hl
    exact trimmed_commentLines hc
  simp only [clean?] at h
  generalize comments.flatMap commentLines = lines at hn ht h
  have hdn : ∀ l ∈ lines.map (dedent (commonIndent lines)), '\n' ∉ l := by
    intro l hl
    obtain ⟨line, hm, rfl⟩ := List.mem_map.mp hl
    exact fun hc => hn line hm ((dedent_suffix _ line).subset hc)
  have hdt : ∀ l ∈ lines.map (dedent (commonIndent lines)), Trimmed l := by
    intro l hl
    obtain ⟨line, hm, rfl⟩ := List.mem_map.mp hl
    exact (ht line hm).suffix (dedent_suffix _ line)
  rw [Text.trim_join hdn hdt] at h
  split at h
  · cases h
  · rename_i hb
    cases h
    apply isClean_join hdn hdt
    obtain ⟨line, hm, hfull, he⟩ := exists_dedent_eq (exists_full hb)
    refine ⟨Text.trimStart line, he ▸ List.mem_map_of_mem hm, Text.trimStart_ne_nil hfull, ?_⟩
    exact Text.stops_dropWhile Text.isBlank line

theorem commentLines_written {l : Text} (h : Trimmed l) :
    commentLines (("-- " : Text) ++ l) = [l] := by
  have hd : commentLines (("-- " : Text) ++ l) = [Text.trimEnd l] := rfl
  rw [hd, h.trimEnd_eq]

def writeComments (d : Text) : List Text :=
  (d.splitOn '\n').map fun l => ("-- " : Text) ++ l

theorem flatMap_writeComments {d : Text} (h : ∀ l ∈ d.splitOn '\n', Trimmed l) :
    (writeComments d).flatMap commentLines = d.splitOn '\n' := by
  rw [writeComments, List.flatMap_map]
  calc (d.splitOn '\n').flatMap (fun l => commentLines (("-- " : Text) ++ l))
      = (d.splitOn '\n').flatMap (fun l => [l]) :=
        List.flatMap_congr fun l hl => commentLines_written (h l hl)
    _ = d.splitOn '\n' := List.flatMap_singleton' _

namespace IsClean

theorem innerLines_eq {d : Text} (h : IsClean d) :
    Text.innerLines (d.splitOn '\n') = d.splitOn '\n' := by
  obtain ⟨first, hf, hfb⟩ := h.first
  obtain ⟨last, hl, hlb⟩ := h.last
  apply Text.innerLines_eq_self
  · rw [hf]
    rintro ⟨⟩
    cases hfb
  · rw [hl]
    rintro ⟨⟩
    cases hlb

theorem trim_eq {d : Text} (h : IsClean d) : Text.trimEnd (d.dropWhile (· == '\n')) = d := by
  have ht := Text.trim_join (fun l hl => Text.newline_not_mem_of_mem_splitOn hl) h.ends
  rwa [h.innerLines_eq, Text.join_splitOn] at ht

theorem isBlankText_eq {d : Text} (h : IsClean d) : Text.isBlankText d = false := by
  have ht : Trimmed d := by
    rw [← h.trim_eq]
    exact Text.trimmed_trimEnd _
  rw [ht.isBlankText_eq, List.isEmpty_eq_false_iff]
  rintro rfl
  obtain ⟨l, hl, hb⟩ := h.first
  cases hl
  cases hb

theorem clean?_writeComments {d : Text} (h : IsClean d) : clean? (writeComments d) = some d := by
  have hdedent : (d.splitOn '\n').map (dedent 0) = d.splitOn '\n' :=
    (List.map_congr_left fun l hl => dedent_zero (h.ends l hl)).trans (List.map_id' _)
  simp only [clean?, flatMap_writeComments h.ends, commonIndent_eq_zero h.margin, hdedent,
    Text.join_splitOn, h.trim_eq, h.isBlankText_eq]
  rfl

end IsClean

end Doc

/--
Cleaning has settled after one pass. What it leaves of the comments of a source is clean, and
cleaning the same text written as comments again changes nothing.
-/
theorem clean?_comments {comments : List Token} {d : Text}
    (h : ∀ t ∈ comments, t.kind = .comment ∧
      ∃ source origin tokens, tokenize source origin = .ok tokens ∧ t ∈ tokens)
    (hd : Doc.clean? (comments.map Token.text) = some d) :
    Doc.IsClean d ∧ Doc.clean? (Doc.writeComments d) = some d := by
  have hn : ∀ l ∈ (comments.map Token.text).flatMap Doc.commentLines, '\n' ∉ l := by
    intro l hl
    rw [List.flatMap_map] at hl
    obtain ⟨t, ht, hl⟩ := List.mem_flatMap.mp hl
    obtain ⟨hk, source, origin, tokens, hs, hm⟩ := h t ht
    exact Doc.newline_not_mem_of_token hk ((tokenize_eq_ok_iff.mp hs).proper t hm) hl
  have hc := Doc.isClean_of_clean? hn hd
  exact ⟨hc, hc.clean?_writeComments⟩

/-- A line with white space of three bytes before it, where the least indentation is two. -/
def indentedSource : Text :=
  "/*\n\u3000a \n *   b */ --    c\n--\n"

theorem clean?_comments_of_indented :
    ∃ tokens, tokenize indentedSource .start = .ok tokens ∧
      Doc.clean? ((tokens.filter (·.kind = .comment)).map Token.text) = some "a\nb\n c".toList ∧
      Doc.IsClean "a\nb\n c".toList ∧
      Doc.clean? (Doc.writeComments "a\nb\n c".toList) = some "a\nb\n c".toList := by
  obtain ⟨tokens, ht, hd⟩ : ∃ tokens, tokenize indentedSource .start = .ok tokens ∧
      Doc.clean? ((tokens.filter (·.kind = .comment)).map Token.text) = some "a\nb\n c".toList := by
    have hr : (tokenize indentedSource .start).map (fun tokens =>
        Doc.clean? ((tokens.filter (·.kind = .comment)).map Token.text)) =
          .ok (some "a\nb\n c".toList) := by
      decide +kernel
    cases ht : tokenize indentedSource .start with
    | error e =>
      rw [ht] at hr
      cases hr
    | ok tokens =>
      rw [ht] at hr
      exact ⟨tokens, rfl, Except.ok.inj hr⟩
  refine ⟨tokens, ht, hd, clean?_comments ?_ hd⟩
  intro t hm
  obtain ⟨hm, hk⟩ := List.mem_filter.mp hm
  exact ⟨of_decide_eq_true hk, indentedSource, .start, tokens, ht, hm⟩

end Bindery

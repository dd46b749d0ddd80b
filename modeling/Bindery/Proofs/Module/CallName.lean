import Bindery.Proofs.Module.Placeholders
import Bindery.Proofs.Schema.Placement
import Bindery.Proofs.Text.Cut
import Bindery.Proofs.Token.Kinds
import Bindery.Proofs.Token.Tiling

namespace Bindery

namespace Run

/-- Significant tokens that follow one another stand in a stretch of all tokens that begins and ends
with them, behind white space and comments. -/
theorem exists_stretch {tokens run back : List Token} (hn : run ≠ [])
    (h : tokens.filter (!·.isTrivia) = run ++ back) :
    ∃ gap stretch rest, tokens = gap ++ stretch ++ rest ∧ (∀ t ∈ gap, t.isTrivia = true) ∧
      stretch.filter (!·.isTrivia) = run ∧ stretch.head? = run.head? ∧
      stretch.getLast? = run.getLast? ∧ rest.filter (!·.isTrivia) = back := by
  induction run generalizing tokens with
  | nil => exact absurd rfl hn
  | cons first run ih =>
    obtain ⟨gap, behind, rfl, hg, hf, hb⟩ := List.filter_eq_cons_iff.mp h
    have hgap : ∀ t ∈ gap, t.isTrivia = true := by simpa using hg
    cases run with
    | nil => exact ⟨gap, [first], behind, by simp, hgap, by simpa using hf, rfl, rfl, hb⟩
    | cons second run =>
      obtain ⟨space, stretch, rest, rfl, hs, hr, -, hl, hrest⟩ := ih (by simp) hb
      have hspace : space.filter (!·.isTrivia) = [] := by simpa using hs
      refine ⟨gap, first :: (space ++ stretch), rest, by simp, hgap, ?_, rfl, ?_, hrest⟩
      · rw [List.filter_cons, if_pos hf, List.filter_append, hspace, hr, List.nil_append]
      · rw [List.getLast?_cons_cons, ← hl, ← List.cons_append]
        apply List.getLast?_append_of_ne_nil
        rintro rfl
        cases hr

/-- The text that a run covers is what the tokens from its first to its last spell. -/
theorem covered_eq_of_stretch {source : Text} {origin : Position}
    {before stretch after run : List Token}
    (h : tokenize source origin = .ok (before ++ stretch ++ after))
    (hf : stretch.head? = run.head?) (hl : stretch.getLast? = run.getLast?) :
    covered source run = stretch.flatMap Token.text := by
  have hx := tokenize_eq_ok_iff.mp h
  have hsource := hx.text_eq
  have hcovered : covered source run = covered source stretch := by
    rw [covered, covered, hf, hl]
  rw [hcovered]
  cases stretch with
  | nil => rfl
  | cons first more =>
    have hends := List.getLast?_eq_some_getLast (List.cons_ne_nil first more)
    generalize (first :: more).getLast _ = last at hends
    obtain ⟨init, hi⟩ := List.getLast?_eq_some_iff.mp hends
    have hfirst : first.offset = Text.byteSize (before.flatMap Token.text) := by
      rw [List.append_assoc, List.cons_append] at hx
      rw [hx.at_token.1, Nat.zero_add]
    have hlast : last.stop = Text.byteSize (before.flatMap Token.text) +
        Text.byteSize ((first :: more).flatMap Token.text) := by
      rw [hi, ← List.append_assoc, List.append_assoc, List.singleton_append] at hx
      rw [Token.stop, hx.at_token.1, hi]
      simp [Text.byteSize_append, Nat.add_assoc]
    rw [covered, List.head?_cons, hends]
    dsimp only
    rw [hfirst, hlast, hsource]
    simp only [List.flatMap_append, List.append_assoc, List.append_nil]
    exact Text.between_append _ _ _

end Run

/-- The statement creates a function under this name: the name stands behind the first word
`FUNCTION`, from its first token to the last one before the parenthesis of the parameters. -/
def Statement.Names (s : Statement) (callName : Text) : Prop :=
  ∃ (front gap name space back : List Token) (keyword opening : Token),
    tokenize s.text s.position =
      .ok (front ++ keyword :: (gap ++ name ++ (space ++ opening :: back))) ∧
    (∀ t ∈ front, t.isKeyword "FUNCTION" = false) ∧ keyword.isKeyword "FUNCTION" = true ∧
    (∀ t ∈ gap ++ space, t.isTrivia = true) ∧
    name.head?.any (!·.isTrivia) = true ∧ name.getLast?.any (!·.isTrivia) = true ∧
    (∀ t ∈ name, t.isSymbol '(' = false) ∧ opening.isSymbol '(' = true ∧
    name.flatMap Token.text = callName

theorem Statement.names_of_header {s : Statement} {tokens name rest : List Token}
    {keyword opening : Token} (h : tokenize s.text s.position = .ok tokens)
    (hd : (tokens.filter (!·.isTrivia)).dropWhile (!·.isKeyword "FUNCTION") =
      keyword :: (name ++ opening :: rest)) (hn : name ≠ [])
    (hi : ∀ t ∈ name, t.isIdentifier = true ∨ t.isSymbol '.' = true)
    (ho : opening.isSymbol '(' = true) : s.Names (Run.covered s.text name) := by
  have hsplit := List.takeWhile_append_dropWhile (p := (!Token.isKeyword · "FUNCTION"))
    (l := tokens.filter (!·.isTrivia))
  rw [hd] at hsplit
  obtain ⟨front, behind, rfl, hfront, hbehind⟩ := List.filter_eq_append_iff.mp hsplit.symm
  obtain ⟨lead, behind, rfl, hlead, -, hbehind⟩ := List.filter_eq_cons_iff.mp hbehind
  obtain ⟨gap, stretch, behind, rfl, hgap, hname, hfirst, hlast, hbehind⟩ :=
    Run.exists_stretch hn hbehind
  obtain ⟨space, back, rfl, hspace, -, -⟩ := List.filter_eq_cons_iff.mp hbehind
  have hk : keyword.isKeyword "FUNCTION" = true := by
    have hhead := List.head?_dropWhile_not (!Token.isKeyword · "FUNCTION")
      ((front ++ (lead ++ keyword :: (gap ++ stretch ++ (space ++ opening :: back)))).filter
        (!·.isTrivia))
    rw [hd] at hhead
    simpa using hhead
  have hsignificant {t : Token} (ht : t ∈ name) : (!t.isTrivia) = true := by
    rw [← hname] at ht
    exact (List.mem_filter.mp ht).2
  refine ⟨front ++ lead, gap, stretch, space, back, keyword, opening, ?_, ?_, hk, ?_, ?_, ?_, ?_,
    ho, ?_⟩
  · rw [h, List.append_assoc front]
  · intro t ht
    cases htrivia : t.isTrivia with
    | true => exact Token.isKeyword_of_trivia htrivia _
    | false =>
      have htf : t ∈ front := by
        rcases List.mem_append.mp ht with ht | ht
        · exact ht
        · exact absurd htrivia (by simpa using hlead t ht)
      have htake : t ∈ front.filter (!·.isTrivia) := List.mem_filter.mpr ⟨htf, by simp [htrivia]⟩
      rw [hfront] at htake
      simpa using List.mem_takeWhile_imp htake
  · intro t ht
    rcases List.mem_append.mp ht with ht | ht
    · exact hgap t ht
    · simpa using hspace t ht
  · rw [hfirst, List.head?_eq_some_head hn]
    exact hsignificant (List.head_mem hn)
  · rw [hlast, List.getLast?_eq_some_getLast hn]
    exact hsignificant (List.getLast_mem hn)
  · intro t ht
    cases htrivia : t.isTrivia with
    | true => exact Token.isSymbol_of_trivia htrivia _
    | false =>
      have htn : t ∈ stretch.filter (!·.isTrivia) := List.mem_filter.mpr ⟨ht, by simp [htrivia]⟩
      rw [hname] at htn
      rcases hi t htn with hid | hdot
      · exact Token.isSymbol_of_isIdentifier hid _
      · rw [Bool.eq_false_iff]
        intro hopen
        exact absurd (Token.isSymbol_unambiguous t _ _ hdot hopen) (by decide)
  · have htiles : tokenize s.text s.position =
        .ok (front ++ (lead ++ keyword :: gap) ++ stretch ++ (space ++ opening :: back)) := by
      rw [h]
      simp only [List.append_assoc, List.cons_append]
    exact (Run.covered_eq_of_stretch htiles hfirst hlast).symm

theorem Signature.names_of_parse {s : Statement} {c : Catalog} {f : Signature}
    (h : parse s c = .ok f) : s.Names f.callName := by
  unfold parse at h
  obtain ⟨tokens, ht, h⟩ := bind_eq_ok_iff.mp h
  obtain ⟨all, ha, hfilter⟩ := bind_eq_ok_iff.mp ht
  cases hfilter
  split at h
  · cases h
  · rename_i keyword header hd
    split at h
    · cases h
    · rename_i name after hq
      split at h
      · cases h
      · rename_i opening rest
        split at h
        · cases h
        · rename_i ho
          obtain ⟨list, -, h⟩ := bind_eq_ok_iff.mp h
          obtain ⟨fragments, -, h⟩ := bind_eq_ok_iff.mp h
          obtain ⟨params, -, h⟩ := bind_eq_ok_iff.mp h
          obtain ⟨returns, -, h⟩ := bind_eq_ok_iff.mp h
          cases h
          obtain ⟨hh, hn, hi⟩ := Run.qualifiedName?_sound hq
          subst hh
          exact Statement.names_of_header ha hd hn hi (by simpa using ho)

namespace Schema

theorem exists_statement {functions : Text} {shared : Option Text} {s : Schema}
    (h : parse functions shared = .ok s) {f : Signature} (hf : f ∈ s.functions) :
    ∃ statements st, segment functions = .ok statements ∧ st ∈ statements ∧
      Signature.parse st s.catalog = .ok f := by
  obtain ⟨_, statements, _, _, -, hs, -, hd, -, hm⟩ := exists_statements h
  rw [(Declaration.apart_of_mapM hd).2] at hm
  obtain ⟨st, hst, hp⟩ := (mem_iff_of_mapM hm).mp hf
  exact ⟨statements, st, hs, List.mem_of_mem_filter hst, hp⟩

end Schema

namespace WrapperCode

theorem execute_query_infix_render {c : WrapperCode} (h : c.params = []) :
    "await cur.execute(".toList ++ Module.quote c.query ++ ")\n".toList <:+: c.render := by
  have he : c.executeArguments = Module.quote c.query := by
    unfold executeArguments
    dsimp only
    rw [if_pos (by simpa using h)]
  rw [← he]
  exact c.execute_infix_render

theorem callName_prefix_query_iff (enums : List EnumClass) (w : Wrapper) :
    w.selection ++ w.callName ++ ['('] <+: (ofWrapper enums w).query ↔ '%' ∉ w.callName := by
  have hopen : "(".toList = ['('] := by decide
  rw [query_ofWrapper, hopen]
  simp only [List.append_assoc]
  rw [List.prefix_append_right_inj]
  constructor
  · intro h
    exact Query.percent_not_mem_of_prefix (by decide) h
  · intro h
    rw [Query.escapePercent_eq_self h, List.prefix_append_right_inj]
    exact List.prefix_append _ _

end WrapperCode

namespace Binding

/--
A function is called by its name as it stands in its statement, and the statement that the driver
sends begins with exactly this name and a parenthesis unless the function has no parameters and a
percent sign in its name.
-/
theorem build_sends_callName_iff {functions : Text} {shared : Option Text} {s : Schema}
    (hs : Schema.parse functions shared = .ok s) {strict : Bool} {b : Binding}
    (hb : build s strict = .ok b) {w : Wrapper} (hw : w ∈ b.wrappers) {values : List Text}
    (hv : values.length = w.params.length) :
    let code := WrapperCode.ofWrapper b.enums w
    (∃ statements statement, segment functions = .ok statements ∧ statement ∈ statements ∧
      statement.Names w.callName) ∧
    (∃ literal, "await cur.execute(".toList ++ literal ++
        (if w.params.isEmpty then ")\n".toList else ", [".toList) <:+: code.render ∧
      Module.readLiteral? literal = if '\x00' ∈ code.query then none else some code.query) ∧
    ∃ sent, Query.sent? code.query (if w.params.isEmpty then none else some values) = some sent ∧
      (w.selection ++ w.callName ++ ['('] <+: sent ↔ w.params ≠ [] ∨ '%' ∉ w.callName) := by
  intro code
  refine ⟨?_, ⟨Module.quote code.query, ?_, Module.readLiteral?_quote _⟩, ?_⟩
  · obtain ⟨plans, rfl⟩ := exists_assemble hb
    obtain ⟨f, hf, identifier, plan, resultClass, rfl⟩ := exists_function hw
    obtain ⟨statements, statement, hst, hm, hp⟩ := Schema.exists_statement hs hf
    exact ⟨statements, statement, hst, hm, Signature.names_of_parse hp⟩
  · split
    · rename_i hp
      apply WrapperCode.execute_query_infix_render
      simpa [code, WrapperCode.ofWrapper] using hp
    · rename_i hp
      have hx : code.params ≠ [] := by simpa [code, WrapperCode.ofWrapper] using hp
      obtain ⟨before, after, he⟩ := WrapperCode.execute_values_infix_render hx
      refine ⟨before, Text.join ", " code.values ++ "])\n".toList ++ after, ?_⟩
      rw [← he]
      simp only [List.append_assoc]
  · split
    · rename_i hp
      refine ⟨code.query, rfl, ?_⟩
      rw [List.isEmpty_iff.mp hp]
      have hiff := WrapperCode.callName_prefix_query_iff b.enums w
      simpa using hiff
    · rename_i hp
      have hsent := Query.sent?_eq_ite (fun values => WrapperCode.sends_query b.enums w) values
      rw [if_pos hv] at hsent
      refine ⟨_, hsent, ?_⟩
      have hprefix : w.selection ++ w.callName ++ ['('] <+: w.statement b.enums values := by
        have hopen : "(".toList = ['('] := by decide
        rw [Wrapper.statement, hopen, List.append_assoc (w.selection ++ w.callName ++ ['('])]
        exact List.prefix_append _ _
      exact iff_of_true hprefix (.inl (by simpa using hp))

/-- A function with a percent sign in its name and one parameter. -/
def rateSource : Text :=
  "CREATE FUNCTION stats.\"rate%s\" /* daily */ (p_day text) RETURNS int"

def rateSchema : Schema :=
  { functions := [⟨"stats.\"rate%s\"", "stats.rate%s", none,
      [⟨some "p_day", .input, "text", none⟩], ⟨.scalar "int", false⟩, .start⟩] }

def rateWrapper : Wrapper :=
  ⟨"stats.\"rate%s\"", "stats.rate%s", "rate_s", none,
    [⟨some "p_day", "day", "text", .scalar .text, false, false, none, false⟩],
    ⟨.scalar "int", false⟩, .value (.scalar .integer)⟩

theorem build_sends_callName_iff_of_rate :
    Schema.parse rateSource none = .ok rateSchema ∧
      build rateSchema true = .ok { wrappers := [rateWrapper] } ∧
      ∃ sent, Query.sent? "SELECT stats.\"rate%%s\"(%s)" (some ["'mon'"]) = some sent ∧
        "SELECT stats.\"rate%s\"(".toList <+: sent := by
  have hs : Schema.parse rateSource none = .ok rateSchema := by
    set_option maxRecDepth 1000 in
    rw [show rateSource = _ from String.toList_ofList]
    decide +kernel
  have hb : build rateSchema true = .ok { wrappers := [rateWrapper] } := by decide +kernel
  have hv : ["'mon'".toList].length = rateWrapper.params.length := rfl
  obtain ⟨-, -, sent, hsent, hiff⟩ := build_sends_callName_iff hs hb (w := rateWrapper)
    List.mem_cons_self hv
  have hq : (WrapperCode.ofWrapper [] rateWrapper).query =
      "SELECT stats.\"rate%%s\"(%s)".toList := by decide +kernel
  have hc : rateWrapper.selection ++ rateWrapper.callName ++ ['('] =
      "SELECT stats.\"rate%s\"(".toList := by decide +kernel
  rw [hq] at hsent
  rw [hc] at hiff
  exact ⟨hs, hb, sent, hsent, hiff.mpr (.inl (List.cons_ne_nil _ _))⟩

/-- A function with a percent sign in its name and no parameters. -/
def totalSource : Text :=
  "CREATE FUNCTION \"a%b\"() RETURNS int"

def totalSchema : Schema :=
  { functions := [⟨"\"a%b\"", "a%b", none, [], ⟨.scalar "int", false⟩, .start⟩] }

def totalWrapper : Wrapper :=
  ⟨"\"a%b\"", "a%b", "a_b", none, [], ⟨.scalar "int", false⟩, .value (.scalar .integer)⟩

/-- Without parameters the percent sign of a name arrives twice. -/
theorem build_sends_doubled_percent :
    Schema.parse totalSource none = .ok totalSchema ∧
      build totalSchema true = .ok { wrappers := [totalWrapper] } ∧
      "await cur.execute('SELECT \"a%%b\"()')\n".toList <:+:
        (WrapperCode.ofWrapper [] totalWrapper).render ∧
      Query.sent? (WrapperCode.ofWrapper [] totalWrapper).query none =
        some "SELECT \"a%%b\"()".toList ∧
      ¬ "SELECT ".toList ++ totalWrapper.callName ++ ['('] <+: "SELECT \"a%%b\"()".toList := by
  refine ⟨by decide +kernel, by decide +kernel, ?_, by decide +kernel, by decide +kernel⟩
  have hx := WrapperCode.execute_query_infix_render (c := .ofWrapper [] totalWrapper) rfl
  have hq : "await cur.execute(".toList ++
      Module.quote (WrapperCode.ofWrapper [] totalWrapper).query ++ ")\n".toList =
        "await cur.execute('SELECT \"a%%b\"()')\n".toList := by decide +kernel
  rwa [hq] at hx

end Binding

end Bindery

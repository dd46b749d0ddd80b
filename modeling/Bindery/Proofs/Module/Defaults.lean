import Bindery.Module.Default
import Bindery.Proofs.Binding.References
import Bindery.Proofs.Column.Clauses
import Bindery.Proofs.Column.NullDefault
import Bindery.Proofs.Token.Casts
import Bindery.Proofs.Token.Kinds

namespace Bindery

/-- A literal at the head of a default: one token, or a minus sign and a number. -/
inductive Head.SpelledBy : Head → List Token → Prop
  | number {t : Token} : t.kind = .number → SpelledBy (.number t.text) [t]
  | negative {sign t : Token} : sign.isSymbol '-' = true → t.kind = .number →
      SpelledBy (.number ('-' :: t.text)) [sign, t]
  | text {t : Token} {value : Text} : t.stringValue? = some value → SpelledBy (.text value) [t]
  | truth {t : Token} : t.isKeyword "TRUE" = true → SpelledBy (.boolean true) [t]
  | falsity {t : Token} : t.isKeyword "FALSE" = true → SpelledBy (.boolean false) [t]

theorem Casts.startsCast {tokens : List Token} (h : Casts tokens) : Run.StartsCast tokens := by
  cases h with
  | none => exact .inl rfl
  | cast hc _ _ => exact .inr ⟨_, _, _, rfl, hc.first, hc.second⟩

namespace Head

theorem ofToken?_eq_some_iff {t : Token} {head : Head} :
    ofToken? t = some head ↔ head.SpelledBy [t] := by
  constructor
  · intro h
    unfold ofToken? at h
    split at h
    · rename_i hk
      cases h
      exact .number hk
    · obtain ⟨value, hv, rfl⟩ := Option.map_eq_some_iff.mp h
      exact .text hv
    · split at h
      · rename_i hk
        cases h
        exact .truth hk
      · split at h
        · rename_i hk
          cases h
          exact .falsity hk
        · cases h
    · cases h
  · intro h
    cases h with
    | number hk => rw [ofToken?, hk]
    | text hv =>
      rw [ofToken?, Token.kind_of_stringValue? hv]
      exact congrArg (Option.map Head.text) hv
    | truth hk => rw [ofToken?, Token.kind_of_isKeyword hk, if_pos hk]
    | falsity hk =>
      have hn : t.isKeyword "TRUE" = false := Token.isKeyword_of_other hk (by decide)
      rw [ofToken?, Token.kind_of_isKeyword hk, if_neg (Bool.eq_false_iff.mp hn), if_pos hk]

theorem SpelledBy.no_colon {head : Head} {value : List Token} (h : head.SpelledBy value) :
    ∀ t ∈ value, t.isSymbol ':' = false := by
  have hkind {t : Token} {kind : TokenKind} (hk : t.kind = kind) (hs : kind ≠ .symbol) :
      t.isSymbol ':' = false := Token.isSymbol_of_kind (hk ▸ hs) ':'
  cases h with
  | number hk => exact List.forall_mem_singleton.mpr (hkind hk (by decide))
  | negative hs hk =>
    rw [List.forall_mem_cons, List.forall_mem_singleton]
    refine ⟨?_, hkind hk (by decide)⟩
    rw [Bool.eq_false_iff]
    intro hc
    exact absurd (Token.isSymbol_unambiguous _ _ _ hs hc) (by decide)
  | text hv =>
    exact List.forall_mem_singleton.mpr (hkind (Token.kind_of_stringValue? hv) (by decide))
  | truth hk =>
    exact List.forall_mem_singleton.mpr (hkind (Token.kind_of_isKeyword hk) (by decide))
  | falsity hk =>
    exact List.forall_mem_singleton.mpr (hkind (Token.kind_of_isKeyword hk) (by decide))

theorem beforeCast_append {value tail : List Token} (hv : ∀ t ∈ value, t.isSymbol ':' = false)
    (ht : Run.StartsCast tail) : beforeCast (value ++ tail) = value := by
  induction value with
  | nil =>
    rcases ht with rfl | ⟨a, b, rest, rfl, ha, hb⟩
    · rfl
    · rw [List.nil_append, beforeCast, ha, hb]
      rfl
  | cons t value ih =>
    obtain ⟨hc, hv⟩ := List.forall_mem_cons.mp hv
    have hi := ih hv
    cases hr : value ++ tail with
    | nil =>
      rw [hr] at hi
      rw [List.cons_append, hr, ← hi]
      rfl
    | cons u rest =>
      rw [hr] at hi
      rw [List.cons_append, hr, beforeCast, hc, Bool.false_and, hi]
      rfl

theorem exists_beforeCast (tokens : List Token) :
    ∃ tail, tokens = beforeCast tokens ++ tail ∧ Run.StartsCast tail := by
  fun_induction beforeCast tokens with
  | case1 a b rest hc =>
    rw [Bool.and_eq_true] at hc
    exact ⟨a :: b :: rest, rfl, .inr ⟨a, b, rest, rfl, hc.1, hc.2⟩⟩
  | case2 a b rest hc ih =>
    obtain ⟨tail, ht, hs⟩ := ih
    exact ⟨tail, by rw [List.cons_append, ← ht], hs⟩
  | case3 tokens hn => exact ⟨[], (List.append_nil _).symm, .inl rfl⟩

/-- A literal and what follows it are told apart by where the first cast stands. -/
theorem SpelledBy.split_unique {head other : Head} {value tail value' tail' : List Token}
    (h : head.SpelledBy value) (ht : Run.StartsCast tail) (h' : other.SpelledBy value')
    (ht' : Run.StartsCast tail') (he : value ++ tail = value' ++ tail') :
    value = value' ∧ tail = tail' := by
  have hv : value = value' := by
    rw [← beforeCast_append h.no_colon ht, he, beforeCast_append h'.no_colon ht']
  subst hv
  exact ⟨rfl, List.append_cancel_left he⟩

theorem parse?_of_spelledBy {raw : Text} {head : Head} {value tail : List Token}
    (hr : significantTokens raw .start = .ok (value ++ tail)) (h : head.SpelledBy value)
    (ht : Run.StartsCast tail) : parse? raw = some head := by
  have hb := beforeCast_append h.no_colon ht
  unfold parse?
  rw [hr]
  dsimp only
  rw [hb]
  cases h with
  | negative hs hk =>
    dsimp only
    rw [hs, hk]
    rfl
  | number hk => exact ofToken?_eq_some_iff.mpr (.number hk)
  | text hv => exact ofToken?_eq_some_iff.mpr (.text hv)
  | truth hk => exact ofToken?_eq_some_iff.mpr (.truth hk)
  | falsity hk => exact ofToken?_eq_some_iff.mpr (.falsity hk)

/-- The value of a default is a literal before the first cast, whatever the cast goes on with. -/
theorem parse?_eq_some_iff {raw : Text} {head : Head} :
    parse? raw = some head ↔ ∃ value tail, significantTokens raw .start = .ok (value ++ tail) ∧
      head.SpelledBy value ∧ Run.StartsCast tail := by
  constructor
  · intro h
    unfold parse? at h
    cases hr : significantTokens raw .start with
    | error e =>
      rw [hr] at h
      cases h
    | ok tokens =>
      rw [hr] at h
      dsimp only at h
      obtain ⟨tail, ht, hs⟩ := exists_beforeCast tokens
      refine ⟨beforeCast tokens, tail, by rw [← ht], ?_, hs⟩
      split at h
      · rename_i single hb
        rw [hb]
        exact ofToken?_eq_some_iff.mp h
      · rename_i sign digits hb
        split at h
        · rename_i hd
          rw [Bool.and_eq_true, beq_iff_eq] at hd
          cases h
          rw [hb]
          exact .negative hd.1 hd.2
        · cases h
      · cases h
  · rintro ⟨value, tail, hr, h, ht⟩
    exact parse?_of_spelledBy hr h ht

end Head

namespace Default

/-- Nothing of the expression is lost: a literal and `NULL` stand for all of it but its casts. -/
def Keeps (raw : Text) : Default → Prop
  | .literal _ => ∃ (head : Head) (value casts : List Token),
      significantTokens (Text.trim raw) .start = .ok (value ++ casts) ∧ head.SpelledBy value ∧
        Casts casts
  | .null => ∃ (opens : List Token) (null : Token) (closes casts : List Token),
      significantTokens (Text.trim raw) .start = .ok (opens ++ null :: (closes ++ casts)) ∧
        opens.length = closes.length ∧ (∀ t ∈ opens, t.isSymbol '(' = true) ∧
        null.isKeyword "NULL" = true ∧ (∀ t ∈ closes, t.isSymbol ')' = true) ∧ Casts casts
  | .sql expression => expression = Text.trim raw

/-- How a default is translated, and when nothing of it is lost. Only what stands before the first
cast decides; what follows the cast does not count. -/
inductive Translates (enums : List EnumClass) (type : ValueType) (raw : Text) :
    Default → Prop → Prop
  | null (n : NullText) : n.print = Text.trim raw → Translates enums type raw .null
      (n.opened = n.closed ∧ ∃ front casts,
        significantTokens (Text.trim raw) .start = .ok (front ++ casts) ∧
        front.length = n.opened + 1 + n.closed ∧ Casts casts)
  | literal {head : Head} {value tail : List Token} {literal : Literal} :
      (∀ n : NullText, n.print ≠ Text.trim raw) →
      significantTokens (Text.trim raw) .start = .ok (value ++ tail) → head.SpelledBy value →
      Run.StartsCast tail → head.literal? enums type = some literal →
      Translates enums type raw (.literal literal) (Casts tail)
  | sql : (∀ n : NullText, n.print ≠ Text.trim raw) →
      (∀ (head : Head) (value tail : List Token),
        significantTokens (Text.trim raw) .start = .ok (value ++ tail) → head.SpelledBy value →
        Run.StartsCast tail → head.literal? enums type = none) →
      Translates enums type raw (.sql (Text.trim raw)) True

theorem run_unique {p : Token → Bool} {run rest run' rest' : List Token}
    (h : ∀ t ∈ run, p t = true) (hr : ∀ t ∈ rest.head?, p t = false)
    (h' : ∀ t ∈ run', p t = true) (hr' : ∀ t ∈ rest'.head?, p t = false)
    (he : run ++ rest = run' ++ rest') : run = run' ∧ rest = rest' := by
  have htake {run rest : List Token} (h : ∀ t ∈ run, p t = true)
      (hr : ∀ t ∈ rest.head?, p t = false) : (run ++ rest).takeWhile p = run := by
    rw [List.takeWhile_append_of_pos h]
    cases rest with
    | nil => simp
    | cons t rest => rw [List.takeWhile_cons_of_neg (by simp [hr t rfl]), List.append_nil]
  have hrun : run = run' := by rw [← htake h hr, he, htake h' hr']
  subst hrun
  exact ⟨rfl, List.append_cancel_left he⟩

theorem no_paren_of_startsCast {tokens : List Token} (h : Run.StartsCast tokens) :
    ∀ t ∈ tokens.head?, t.isSymbol ')' = false := by
  rcases h with rfl | ⟨a, b, rest, rfl, ha, -⟩
  · intro t ht
    cases ht
  · intro t ht
    cases ht
    rw [Bool.eq_false_iff]
    intro hc
    exact absurd (Token.isSymbol_unambiguous _ _ _ ha hc) (by decide)

theorem keeps_null_iff {raw : Text} {n : NullText} (hn : n.print = Text.trim raw) :
    Keeps raw .null ↔ n.opened = n.closed ∧ ∃ front casts,
      significantTokens (Text.trim raw) .start = .ok (front ++ casts) ∧
      front.length = n.opened + 1 + n.closed ∧ Casts casts := by
  obtain ⟨opens, null, closes, hol, ho, hk, hcl, hc, htokens⟩ := n.exists_tokens .start
  rw [hn] at htokens
  have hword {t : Token} (ht : t.isKeyword "NULL" = true) : t.isSymbol '(' = false :=
    Token.isSymbol_of_kind (by rw [Token.kind_of_isKeyword ht]; decide) '('
  constructor
  · rintro ⟨opens', null', closes', casts, hr, hlen, ho', hk', hc', hcasts⟩
    obtain ⟨tail, he, hs⟩ := htokens _ hr
    obtain ⟨rfl, hrest⟩ := run_unique (p := (·.isSymbol '(')) ho'
      (by rintro t ⟨⟩; exact hword hk') ho (by rintro t ⟨⟩; exact hword hk) he
    obtain ⟨rfl, hafter⟩ := List.cons.inj hrest
    obtain ⟨rfl, rfl⟩ := run_unique (p := (·.isSymbol ')')) hc'
      (no_paren_of_startsCast hcasts.startsCast) hc (no_paren_of_startsCast hs) hafter
    refine ⟨by rw [← hol, ← hcl, hlen], opens' ++ null' :: closes', casts, ?_, ?_, hcasts⟩
    · rw [hr, List.append_assoc, List.cons_append]
    · rw [List.length_append, List.length_cons, hol, hcl]
      omega
  · rintro ⟨hbalance, front, casts, hr, hlen, hcasts⟩
    obtain ⟨tail, he, hs⟩ := htokens _ hr
    have hsplit : front ++ casts = (opens ++ null :: closes) ++ tail := by
      rw [he, List.append_assoc, List.cons_append]
    have hfront : front.length = (opens ++ null :: closes).length := by
      rw [List.length_append, List.length_cons, hlen, hol, hcl]
      omega
    obtain ⟨-, rfl⟩ := List.append_inj hsplit hfront
    exact ⟨opens, null, closes, casts, by rw [hr, he], by rw [hol, hcl, hbalance], ho, hk, hc,
      hcasts⟩

theorem keeps_literal_iff {raw : Text} {head : Head} {value tail : List Token}
    (hr : significantTokens (Text.trim raw) .start = .ok (value ++ tail))
    (h : head.SpelledBy value) (ht : Run.StartsCast tail) (literal : Literal) :
    Keeps raw (.literal literal) ↔ Casts tail := by
  constructor
  · rintro ⟨other, value', casts, hr', h', hcasts⟩
    rw [hr, Except.ok.injEq] at hr'
    obtain ⟨-, rfl⟩ := h.split_unique ht h' hcasts.startsCast hr'
    exact hcasts
  · intro hcasts
    exact ⟨head, value, tail, hr, h, hcasts⟩

theorem Translates.keeps_iff {enums : List EnumClass} {type : ValueType} {raw : Text}
    {result : Default} {complete : Prop} (h : Translates enums type raw result complete) :
    result.Keeps raw ↔ complete := by
  cases h with
  | null n hn => exact keeps_null_iff hn
  | literal _ hr hv ht _ => exact keeps_literal_iff hr hv ht _
  | sql _ _ => exact iff_true_intro rfl

/-- Every default is translated, if the argument says correctly whether it counts as `NULL`. -/
theorem exists_translates (enums : List EnumClass) {a : Argument} {raw : Text}
    (hd : a.default = some raw) (hs : a.hasSqlDefault = !isNullLiteral raw) :
    ∃ result complete, ofArgument? enums a = some result ∧
      Translates enums a.type raw result complete := by
  rw [← isNullLiteral_trim] at hs
  cases hn : isNullLiteral (Text.trim raw) with
  | true =>
    obtain ⟨n, hp⟩ := isNullLiteral_iff.mp hn
    refine ⟨.null, _, ?_, .null n hp⟩
    simp [ofArgument?, hd, hs, hn]
  | false =>
    have hnone : ∀ n : NullText, n.print ≠ Text.trim raw := by
      intro n hp
      rw [isNullLiteral_iff.mpr ⟨n, hp⟩] at hn
      cases hn
    cases hl : (Head.parse? (Text.trim raw)).bind (Head.literal? enums a.type) with
    | some literal =>
      obtain ⟨head, hh, hl'⟩ := Option.bind_eq_some_iff.mp hl
      obtain ⟨value, tail, hr, hv, ht⟩ := Head.parse?_eq_some_iff.mp hh
      refine ⟨.literal literal, _, ?_, .literal hnone hr hv ht hl'⟩
      simp [ofArgument?, hd, hs, hn, hl]
    | none =>
      refine ⟨.sql (Text.trim raw), True, ?_, .sql hnone ?_⟩
      · simp [ofArgument?, hd, hs, hn, hl]
      · intro head value tail hr hv ht
        rw [Head.parse?_of_spelledBy hr hv ht] at hl
        exact hl

end Default

namespace Binding

/-- Every default of a built binding is translated, and nothing of it is lost exactly if only casts
follow its literal or its `NULL`. -/
theorem build_default_keeps_iff {s : Schema} {strict : Bool} {b : Binding}
    (h : build s strict = .ok b) {w : Wrapper} (hw : w ∈ b.wrappers) {a : Argument}
    (ha : a ∈ w.params) {raw : Text} (hd : a.default = some raw) (enums : List EnumClass) :
    ∃ result complete, Default.ofArgument? enums a = some result ∧
      Default.Translates enums a.type raw result complete ∧ (result.Keeps raw ↔ complete) := by
  have hs : a.hasSqlDefault = !isNullLiteral raw := by
    obtain ⟨plans, rfl⟩ := exists_assemble h
    obtain ⟨f, -, identifier, plan, resultClass, rfl⟩ := exists_function hw
    obtain ⟨p, -, name, rfl⟩ := exists_parameter ha
    change p.default = some raw at hd
    change p.default.any (!isNullLiteral ·) = _
    rw [hd]
    rfl
  obtain ⟨result, complete, hr, ht⟩ := Default.exists_translates enums hd hs
  exact ⟨result, complete, hr, ht, ht.keeps_iff⟩

def feeArgument : Argument :=
  ⟨some "p_fee", "fee", "numeric", .scalar .decimal, true, true, some "-5::numeric(10, 2)", false⟩

def feeWrapper : Wrapper :=
  ⟨"charge", "charge", "charge", none, [feeArgument], ⟨.void, false⟩, .void⟩

/-- A function with a cast literal as a default. -/
def feeSchema : Schema :=
  { functions := [⟨"charge", "charge", none,
      [⟨some "p_fee", .input, "numeric", some "-5::numeric(10, 2)"⟩], ⟨.void, false⟩, .start⟩] }

def feeCast : List Token :=
  [⟨.symbol, ":", 2, ⟨1, 3⟩⟩, ⟨.symbol, ":", 3, ⟨1, 4⟩⟩, ⟨.word, "numeric", 4, ⟨1, 5⟩⟩,
    ⟨.symbol, "(", 11, ⟨1, 12⟩⟩, ⟨.number, "10", 12, ⟨1, 13⟩⟩, ⟨.symbol, ",", 14, ⟨1, 15⟩⟩,
    ⟨.number, "2", 16, ⟨1, 17⟩⟩, ⟨.symbol, ")", 17, ⟨1, 18⟩⟩]

theorem casts_feeCast : Casts feeCast :=
  .cast ⟨rfl, rfl, rfl⟩
    (.bounded (.named (.bare rfl) (.listed rfl (.more (.number rfl) rfl (.one (.number rfl))) rfl))
      .none) .none

theorem build_default_keeps_iff_of_fee :
    build feeSchema true = .ok { wrappers := [feeWrapper] } ∧
      Default.ofArgument? [] feeArgument = some (.literal (.decimal "-5")) ∧
      ∃ complete, Default.Translates [] (.scalar .decimal) "-5::numeric(10, 2)"
        (.literal (.decimal "-5")) complete ∧ complete := by
  have hb : build feeSchema true = .ok { wrappers := [feeWrapper] } := by decide +kernel
  have hl : Default.ofArgument? [] feeArgument = some (.literal (.decimal "-5")) := by
    decide +kernel
  obtain ⟨result, complete, hr, ht, hiff⟩ := build_default_keeps_iff hb (w := feeWrapper)
    List.mem_cons_self (a := feeArgument) List.mem_cons_self rfl []
  rw [hl, Option.some.injEq] at hr
  subst hr
  refine ⟨hb, hl, complete, ht, hiff.mp ?_⟩
  refine ⟨_, [⟨.symbol, "-", 0, ⟨1, 1⟩⟩, ⟨.number, "5", 1, ⟨1, 2⟩⟩], feeCast, ?_,
    .negative rfl rfl, casts_feeCast⟩
  decide +kernel

def limitArgument : Argument :=
  ⟨some "p_limit", "limit", "int", .scalar .integer, true, true, some "10::int + 5", false⟩

def limitWrapper : Wrapper :=
  ⟨"pick", "pick", "pick", none, [limitArgument], ⟨.void, false⟩, .void⟩

def limitSchema : Schema :=
  { functions := [⟨"pick", "pick", none, [⟨some "p_limit", .input, "int", some "10::int + 5"⟩],
      ⟨.void, false⟩, .start⟩] }

/-- The tokens of the sum behind its first number. -/
def limitTail : List Token :=
  [⟨.symbol, ":", 2, ⟨1, 3⟩⟩, ⟨.symbol, ":", 3, ⟨1, 4⟩⟩, ⟨.word, "int", 4, ⟨1, 5⟩⟩,
    ⟨.symbol, "+", 8, ⟨1, 9⟩⟩, ⟨.number, "5", 10, ⟨1, 11⟩⟩]

/-- Of a sum whose first number is cast only that number is left. -/
theorem build_default_loses_sum :
    build limitSchema true = .ok { wrappers := [limitWrapper] } ∧
      Default.ofArgument? [] limitArgument = some (.literal (.integer 10)) ∧
      ¬ Default.Keeps "10::int + 5" (.literal (.integer 10)) := by
  refine ⟨by decide +kernel, by decide +kernel, ?_⟩
  have hr : significantTokens (Text.trim "10::int + 5") .start =
      .ok ([⟨.number, "10", 0, ⟨1, 1⟩⟩] ++ limitTail) := by decide +kernel
  have hs : Run.StartsCast limitTail := .inr ⟨_, _, _, rfl, rfl, rfl⟩
  rw [Default.keeps_literal_iff hr (.number rfl) hs]
  intro hc
  have hplus := hc.admits ⟨.symbol, "+", 8, ⟨1, 9⟩⟩ (by decide) '+' rfl
  exact absurd hplus (by decide)

end Binding

end Bindery

import Bindery.Proofs.Nesting
import Bindery.Proofs.Token.Kinds
import Bindery.Token.Run
import Mathlib.Data.List.Forall2

namespace Bindery

namespace Cast

/-- A name with its schemas. -/
inductive QualifiedName : List Token → Prop
  | bare {t : Token} : t.isIdentifier = true → QualifiedName [t]
  | qualified {t dot : Token} {rest : List Token} : t.isIdentifier = true →
      dot.isSymbol '.' = true → QualifiedName rest → QualifiedName (t :: dot :: rest)

/-- The names of types that are made of several words. -/
def phrases : List (List String) :=
  [["double", "precision"], ["character", "varying"], ["char", "varying"], ["nchar", "varying"],
    ["bit", "varying"], ["national", "character"], ["national", "char"],
    ["national", "character", "varying"], ["national", "char", "varying"],
    ["interval", "year"], ["interval", "month"], ["interval", "day"], ["interval", "hour"],
    ["interval", "minute"], ["interval", "second"], ["interval", "year", "to", "month"],
    ["interval", "day", "to", "hour"], ["interval", "day", "to", "minute"],
    ["interval", "day", "to", "second"], ["interval", "hour", "to", "minute"],
    ["interval", "hour", "to", "second"], ["interval", "minute", "to", "second"]]

/-- What may follow a time and its precision. -/
def zones : List (List String) :=
  [["with", "time", "zone"], ["without", "time", "zone"]]

def Phrase (words : List String) (tokens : List Token) : Prop :=
  List.Forall₂ (fun t word => t.isKeyword word.toList = true) tokens words

/-- One modifier of a type: a constant or a name. -/
inductive Modifier : List Token → Prop
  | number {t : Token} : t.kind = .number → Modifier [t]
  | negative {sign t : Token} : sign.isSymbol '-' = true → t.kind = .number → Modifier [sign, t]
  | text {t : Token} : t.kind = .string → Modifier [t]
  | name {t : Token} : t.isIdentifier = true → Modifier [t]

/-- Modifiers with commas between them. -/
inductive ModifierList : List Token → Prop
  | one {m : List Token} : Modifier m → ModifierList m
  | more {m rest : List Token} {comma : Token} : Modifier m → comma.isSymbol ',' = true →
      ModifierList rest → ModifierList (m ++ comma :: rest)

/-- The modifiers of a type in parentheses, if there are any. -/
inductive Modifiers : List Token → Prop
  | none : Modifiers []
  | listed {opening closing : Token} {list : List Token} : opening.isSymbol '(' = true →
      ModifierList list → closing.isSymbol ')' = true → Modifiers (opening :: (list ++ [closing]))

/-- Array bounds, each with a size or without. -/
inductive Bounds : List Token → Prop
  | none : Bounds []
  | free {opening closing : Token} {rest : List Token} : opening.isSymbol '[' = true →
      closing.isSymbol ']' = true → Bounds rest → Bounds (opening :: closing :: rest)
  | sized {opening size closing : Token} {rest : List Token} : opening.isSymbol '[' = true →
      size.kind = .number → closing.isSymbol ']' = true → Bounds rest →
      Bounds (opening :: size :: closing :: rest)

/-- A type that is no array. -/
inductive BaseType : List Token → Prop
  | named {name modifiers : List Token} : QualifiedName name → Modifiers modifiers →
      BaseType (name ++ modifiers)
  | phrase {words : List String} {name modifiers : List Token} : words ∈ phrases →
      Phrase words name → Modifiers modifiers → BaseType (name ++ modifiers)
  | zoned {words : List String} {name : Token} {modifiers zone : List Token} :
      name.isAnyKeyword ["time".toList, "timestamp".toList] = true → Modifiers modifiers →
      words ∈ zones → Phrase words zone → BaseType (name :: (modifiers ++ zone))

/-- A type; the word `ARRAY` stands for bounds as well. -/
inductive TypeName : List Token → Prop
  | bounded {base bounds : List Token} : BaseType base → Bounds bounds → TypeName (base ++ bounds)
  | array {base bounds : List Token} {word : Token} : BaseType base →
      word.isKeyword "array" = true → Bounds bounds → TypeName (base ++ word :: bounds)

/-- Two colons with nothing between them. -/
structure Colons (a b : Token) : Prop where
  first : a.isSymbol ':' = true
  second : b.isSymbol ':' = true
  adjacent : b.offset = a.stop

end Cast

/-- Nothing but casts. -/
inductive Casts : List Token → Prop
  | none : Casts []
  | cast {a b : Token} {type rest : List Token} : Cast.Colons a b → Cast.TypeName type →
      Casts rest → Casts (a :: b :: (type ++ rest))

namespace Cast

def symbols : List Char :=
  [':', '.', ',', '-', '(', ')', '[', ']']

/-- A token that can stand in a cast: any but a symbol of another kind. -/
def Admits (t : Token) : Prop :=
  ∀ c, t.isSymbol c = true → c ∈ symbols

theorem admits_of_kind {t : Token} (h : t.kind ≠ .symbol) : Admits t := by
  intro c hc
  rw [Token.isSymbol_of_kind h] at hc
  cases hc

theorem admits_of_isSymbol {t : Token} {c : Char} (h : t.isSymbol c = true) (hc : c ∈ symbols) :
    Admits t := by
  intro d hd
  rwa [Token.isSymbol_unambiguous t d c hd h]

theorem admits_of_isIdentifier {t : Token} (h : t.isIdentifier = true) : Admits t := by
  apply admits_of_kind
  intro hk
  rw [Token.isIdentifier, hk] at h
  exact absurd h (by decide)

theorem admits_of_isKeyword {t : Token} {word : Text} (h : t.isKeyword word = true) :
    Admits t :=
  admits_of_kind (by rw [Token.kind_of_isKeyword h]; decide)

theorem admits_of_isNumber {t : Token} (h : t.kind = .number) : Admits t :=
  admits_of_kind (by rw [h]; decide)

variable {tokens : List Token}

theorem QualifiedName.admits (h : QualifiedName tokens) : ∀ t ∈ tokens, Admits t := by
  induction h with
  | bare hi => exact List.forall_mem_singleton.mpr (admits_of_isIdentifier hi)
  | qualified hi hd _ ih =>
    rw [List.forall_mem_cons, List.forall_mem_cons]
    exact ⟨admits_of_isIdentifier hi, admits_of_isSymbol hd (by decide), ih⟩

theorem Phrase.admits {words : List String} (h : Phrase words tokens) :
    ∀ t ∈ tokens, Admits t := by
  induction h with
  | nil => exact nofun
  | cons hw _ ih => exact List.forall_mem_cons.mpr ⟨admits_of_isKeyword hw, ih⟩

theorem Modifier.admits (h : Modifier tokens) : ∀ t ∈ tokens, Admits t := by
  cases h with
  | number hk => exact List.forall_mem_singleton.mpr (admits_of_isNumber hk)
  | negative hs hk =>
    rw [List.forall_mem_cons, List.forall_mem_singleton]
    exact ⟨admits_of_isSymbol hs (by decide), admits_of_isNumber hk⟩
  | text hk => exact List.forall_mem_singleton.mpr (admits_of_kind (by rw [hk]; decide))
  | name hi => exact List.forall_mem_singleton.mpr (admits_of_isIdentifier hi)

theorem ModifierList.admits (h : ModifierList tokens) : ∀ t ∈ tokens, Admits t := by
  induction h with
  | one hm => exact hm.admits
  | more hm hc _ ih =>
    rw [List.forall_mem_append, List.forall_mem_cons]
    exact ⟨hm.admits, admits_of_isSymbol hc (by decide), ih⟩

theorem Modifiers.admits (h : Modifiers tokens) : ∀ t ∈ tokens, Admits t := by
  cases h with
  | none => exact nofun
  | listed ho hl hc =>
    rw [List.forall_mem_cons, List.forall_mem_append, List.forall_mem_singleton]
    exact ⟨admits_of_isSymbol ho (by decide), hl.admits, admits_of_isSymbol hc (by decide)⟩

theorem Bounds.admits (h : Bounds tokens) : ∀ t ∈ tokens, Admits t := by
  induction h with
  | none => exact nofun
  | free ho hc _ ih =>
    rw [List.forall_mem_cons, List.forall_mem_cons]
    exact ⟨admits_of_isSymbol ho (by decide), admits_of_isSymbol hc (by decide), ih⟩
  | sized ho hs hc _ ih =>
    rw [List.forall_mem_cons, List.forall_mem_cons, List.forall_mem_cons]
    exact ⟨admits_of_isSymbol ho (by decide), admits_of_isNumber hs,
      admits_of_isSymbol hc (by decide), ih⟩

theorem BaseType.admits (h : BaseType tokens) : ∀ t ∈ tokens, Admits t := by
  cases h with
  | named hn hm => exact List.forall_mem_append.mpr ⟨hn.admits, hm.admits⟩
  | phrase _ hp hm => exact List.forall_mem_append.mpr ⟨hp.admits, hm.admits⟩
  | zoned hn hm _ hz =>
    obtain ⟨word, -, hw⟩ := List.any_eq_true.mp hn
    rw [List.forall_mem_cons, List.forall_mem_append]
    exact ⟨admits_of_isKeyword hw, hm.admits, hz.admits⟩

theorem TypeName.admits (h : TypeName tokens) : ∀ t ∈ tokens, Admits t := by
  cases h with
  | bounded hb hd => exact List.forall_mem_append.mpr ⟨hb.admits, hd.admits⟩
  | array hb hw hd =>
    rw [List.forall_mem_append, List.forall_mem_cons]
    exact ⟨hb.admits, admits_of_isKeyword hw, hd.admits⟩

end Cast

open Cast in
theorem Casts.admits {tokens : List Token} (h : Casts tokens) : ∀ t ∈ tokens, Cast.Admits t := by
  induction h with
  | none => exact nofun
  | cast hc ht _ ih =>
    rw [List.forall_mem_cons, List.forall_mem_cons, List.forall_mem_append]
    exact ⟨admits_of_isSymbol hc.first (by decide), admits_of_isSymbol hc.second (by decide),
      ht.admits, ih⟩

end Bindery

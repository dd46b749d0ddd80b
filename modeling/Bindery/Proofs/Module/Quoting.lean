import Bindery.Proofs.Module.Literal
import Bindery.Proofs.Token.Printing

namespace Bindery

open Text (Stops)
open Lexeme

theorem Lexeme.QuotedTail.exists_doubled {quote : Char} {t : Text}
    (h : QuotedTail quote false t) : ∃ s, quote :: t = Text.inQuotes quote s := by
  suffices ∃ s, t = Text.replaceChar quote [quote, quote] s ++ [quote] by
    obtain ⟨s, rfl⟩ := this
    exact ⟨s, rfl⟩
  induction h with
  | close => exact ⟨[], rfl⟩
  | @plain c t hc _ _ ih =>
    obtain ⟨s, rfl⟩ := ih
    exact ⟨c :: s, by rw [Text.replaceChar_cons, if_neg hc]; rfl⟩
  | @doubled t _ ih =>
    obtain ⟨s, rfl⟩ := ih
    exact ⟨quote :: s, by rw [Text.replaceChar_cons, if_pos rfl]; rfl⟩
  | escaped he => exact absurd he (by decide)

theorem Spells.text_of_stringValue? {t : Token} {rest s : Text} (h : Spells t.kind t.text rest)
    (hv : t.stringValue? = some s) :
    t.kind = .string ∧ t.text = Text.inQuotes '\'' s ∧ Stops (· == '\'') rest := by
  obtain ⟨kind, text, offset, position⟩ := t
  simp only [Token.stringValue?, Option.ite_none_right_eq_some, Option.some.injEq] at hv
  obtain ⟨⟨rfl, hq⟩, rfl⟩ := hv
  cases h with
  | string ht hr =>
    obtain ⟨s, hs⟩ := ht.exists_doubled
    refine ⟨rfl, ?_, hr⟩
    rw [hs, unquote_inQuotes]
  | escapeString he _ _ => rcases he with rfl | rfl <;> cases hq

theorem Spells.text_of_quotedIdentifier {t : Token} {rest : Text} (h : Spells t.kind t.text rest)
    (hk : t.kind = .quotedIdentifier) :
    t.text = Text.inQuotes '"' t.name ∧ Stops (· == '"') rest := by
  obtain ⟨kind, text, offset, position⟩ := t
  simp only at hk
  subst hk
  cases h with
  | quotedIdentifier ht hr =>
    obtain ⟨s, hs⟩ := ht.exists_doubled
    refine ⟨?_, hr⟩
    rw [hs, Token.name, if_pos rfl, unquote_inQuotes]

theorem Cursor.step_eq_token_iff {source : Text} {origin : Position} {t : Token} {next : Cursor} :
    (start source origin).step = .token t next ↔
      ∃ kind text rest, source = text ++ rest ∧ Spells kind text rest ∧
        t = ⟨kind, text, 0, origin⟩ ∧ next = ⟨rest, text.byteSize, origin.advance text⟩ := by
  have hz (n : Nat) : (start source origin).offset + n = n := Nat.zero_add n
  constructor
  · intro h
    rcases (start source origin).step_cases with ⟨_, hf⟩ | ⟨kind, text, rest, hr, hs, ht⟩ | hf
    · rw [h] at hf
      cases hf
    · rw [h, hz] at ht
      cases ht
      exact ⟨kind, text, rest, hr, hs, rfl, rfl⟩
    · obtain ⟨_, _, hf⟩ := hf
      rw [h] at hf
      cases hf
  · rintro ⟨kind, text, rest, rfl, hs, rfl, rfl⟩
    have h := step_spelled hs 0 origin
    rwa [Nat.zero_add] at h

/-- The first token denotes a text exactly if it is the text in single quotes. -/
theorem Cursor.step_stringValue?_iff {source s : Text} {origin : Position} {t : Token}
    {next : Cursor} :
    (start source origin).step = .token t next ∧ t.stringValue? = some s ↔
      ∃ rest, rest.head? ≠ some '\'' ∧ source = Text.inQuotes '\'' s ++ rest ∧
        t = ⟨.string, Text.inQuotes '\'' s, 0, origin⟩ ∧
        next = ⟨rest, (Text.inQuotes '\'' s).byteSize,
          origin.advance (Text.inQuotes '\'' s)⟩ := by
  rw [step_eq_token_iff]
  constructor
  · rintro ⟨⟨kind, text, rest, rfl, hs, rfl, rfl⟩, hv⟩
    obtain ⟨rfl, rfl, hr⟩ := Spells.text_of_stringValue? hs hv
    exact ⟨rest, Text.stops_eq_iff.mp hr, rfl, rfl, rfl⟩
  · rintro ⟨rest, hr, rfl, rfl, rfl⟩
    have hs : Spells .string (Text.inQuotes '\'' s) rest :=
      .string (quotedTail_doubled '\'' s) (Text.stops_eq_iff.mpr hr)
    refine ⟨⟨_, _, rest, rfl, hs, rfl, rfl⟩, ?_⟩
    rw [Token.stringValue?, if_pos ⟨rfl, rfl⟩]
    exact congrArg some (unquote_inQuotes '\'' s)

theorem Cursor.step_quotedIdentifier_iff {source s : Text} {origin : Position} {t : Token}
    {next : Cursor} :
    (start source origin).step = .token t next ∧ t.kind = .quotedIdentifier ∧ t.name = s ↔
      ∃ rest, rest.head? ≠ some '"' ∧ source = Text.inQuotes '"' s ++ rest ∧
        t = ⟨.quotedIdentifier, Text.inQuotes '"' s, 0, origin⟩ ∧
        next = ⟨rest, (Text.inQuotes '"' s).byteSize, origin.advance (Text.inQuotes '"' s)⟩ := by
  rw [step_eq_token_iff]
  constructor
  · rintro ⟨⟨kind, text, rest, rfl, hs, rfl, rfl⟩, hk, rfl⟩
    obtain ⟨ht, hr⟩ := Spells.text_of_quotedIdentifier hs hk
    simp only at hk ht
    subst hk
    rw [← ht]
    exact ⟨rest, Text.stops_eq_iff.mp hr, rfl, rfl, rfl⟩
  · rintro ⟨rest, hr, rfl, rfl, rfl⟩
    have hs : Spells .quotedIdentifier (Text.inQuotes '"' s) rest :=
      .quotedIdentifier (quotedTail_doubled '"' s) (Text.stops_eq_iff.mpr hr)
    refine ⟨⟨_, _, rest, rfl, hs, rfl, rfl⟩, rfl, ?_⟩
    rw [Token.name, if_pos rfl]
    exact unquote_inQuotes '"' s

/--
Quoting and unquoting are inverse. The first token of a text is a string that denotes `s`, or a
quoted identifier that names `s`, exactly if the text begins with `s` in quotes of this kind, its
own quotes doubled, and goes on with anything but another quote; the token is then this beginning.
The literal that is written for `s` stands on one line, and it denotes `s` exactly if `s` holds no
null character, which is written as it is.
-/
theorem quoting_inverse (s : Text) (origin : Position) :
    (∀ source t next,
      (Cursor.start source origin).step = .token t next ∧ t.stringValue? = some s ↔
        ∃ rest, rest.head? ≠ some '\'' ∧ source = Text.inQuotes '\'' s ++ rest ∧
          t = ⟨.string, Text.inQuotes '\'' s, 0, origin⟩ ∧
          next = ⟨rest, (Text.inQuotes '\'' s).byteSize,
            origin.advance (Text.inQuotes '\'' s)⟩) ∧
    (∀ source t next,
      (Cursor.start source origin).step = .token t next ∧
          t.kind = .quotedIdentifier ∧ t.name = s ↔
        ∃ rest, rest.head? ≠ some '"' ∧ source = Text.inQuotes '"' s ++ rest ∧
          t = ⟨.quotedIdentifier, Text.inQuotes '"' s, 0, origin⟩ ∧
          next = ⟨rest, (Text.inQuotes '"' s).byteSize,
            origin.advance (Text.inQuotes '"' s)⟩) ∧
    (Module.readLiteral? (Module.quote s) = some s ↔ '\x00' ∉ s) ∧
    ∀ c ∈ Module.quote s, c ≠ '\n' ∧ c ≠ '\r' :=
  ⟨fun _ _ _ => Cursor.step_stringValue?_iff, fun _ _ _ => Cursor.step_quotedIdentifier_iff,
    Module.readLiteral?_quote_iff s, Module.no_break_mem_quote s⟩

theorem quoting_inverse_of_quotes :
    (Cursor.start "'''''\\\"'''\"x".toList ⟨2, 7⟩).step =
        .token ⟨.string, "'''''\\\"'''".toList, 0, ⟨2, 7⟩⟩ ⟨"\"x".toList, 10, ⟨2, 17⟩⟩ ∧
      Token.stringValue? ⟨.string, "'''''\\\"'''".toList, 0, ⟨2, 7⟩⟩ = some "''\\\"'".toList ∧
      Module.readLiteral? "'\\'\\'\\\\\"\\''".toList = some "''\\\"'".toList := by
  obtain ⟨hs, -, hl, -⟩ := quoting_inverse "''\\\"'".toList ⟨2, 7⟩
  obtain ⟨hstep, hvalue⟩ := (hs "'''''\\\"'''\"x".toList _ _).mpr
    ⟨"\"x".toList, by decide, by decide, rfl, rfl⟩
  exact ⟨hstep, hvalue, hl.mpr (by decide)⟩

/-- The literal that is written for the null character denotes nothing, though another one does. -/
theorem null_quote_unreadable :
    Module.quote ['\x00'] = "'\x00'".toList ∧
      Module.readLiteral? (Module.quote ['\x00']) = none ∧
      Module.readLiteral? "'\\x00'".toList = some ['\x00'] := by
  decide

end Bindery

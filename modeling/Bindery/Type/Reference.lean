import Bindery.Text.Alphabetic
import Bindery.Text.Blank
import Bindery.Text.Lower

namespace Bindery

/-- A base name in small letters without modifiers, and the number of array dimensions. -/
structure TypeRef where
  base : Text
  dimensions : Nat
  deriving DecidableEq, Repr

namespace TypeRef

/-- Drops all that stands in parentheses, of which `depth` are open. -/
def dropModifiers : Nat → Text → Text
  | _, [] => []
  | depth, c :: rest =>
    if c = '(' then dropModifiers (depth + 1) rest
    else if c = ')' then dropModifiers (depth - 1) rest
    else if depth = 0 then c :: dropModifiers depth rest
    else dropModifiers depth rest

/--
Takes one array suffix off the end: brackets with anything between them, or the word `array` after
white space.
-/
def dropDimension? (t : Text) : Option Text :=
  let trimmed := Text.trimEnd t
  match Text.dropBack? "]" trimmed with
  | some inner => (Text.splitLast? '[' inner).map Prod.fst
  | none =>
    (Text.dropBack? "array" trimmed).filter fun front => front.getLast?.any Text.isBlank

theorem dropDimension?_shorter {t front : Text} (h : dropDimension? t = some front) :
    front.length < t.length := by
  have ht := Text.length_trimEnd_le t
  unfold dropDimension? at h
  dsimp only at h
  split at h
  · rename_i inner hb
    have hb := Text.length_of_dropBack? hb
    obtain ⟨⟨front, last⟩, hs, rfl⟩ := Option.map_eq_some_iff.mp h
    have hs := Text.length_of_splitLast? hs
    simp only [String.reduceToList, List.length_cons] at *
    omega
  · obtain ⟨hb, -⟩ := Option.filter_eq_some_iff.mp h
    have hb := Text.length_of_dropBack? hb
    simp only [String.reduceToList, List.length_cons] at *
    omega

/-- Counts the array suffixes off the end of a text. -/
def splitDimensions (t : Text) : Text × Nat :=
  match h : dropDimension? t with
  | some front =>
    have := dropDimension?_shorter h
    let (base, n) := splitDimensions front
    (base, n + 1)
  | none => (t, 0)
termination_by t.length

def parse (raw : Text) : TypeRef :=
  let (base, dimensions) := splitDimensions (Text.lower (dropModifiers 0 raw))
  ⟨(Text.singleSpaced base).filter (· != '"'), dimensions⟩

/-- Whether the base is a single name, possibly with a schema. -/
def isSimpleName (r : TypeRef) : Bool :=
  !r.base.isEmpty &&
    r.base.all fun c => Text.isAlphanumeric c || c == '_' || c == '.' || c == '$'

end TypeRef

end Bindery

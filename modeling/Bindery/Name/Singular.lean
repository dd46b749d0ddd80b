import Bindery.Text.Lower

namespace Bindery.Name

/-- Nouns whose plural is their singular. -/
def uncountable : List Text :=
  ["analytics", "data", "equipment", "information", "metadata", "news", "series", "species",
    "status"]

def irregular : List (Text × Text) :=
  [("people", "person"), ("children", "child"), ("men", "man"), ("women", "woman"),
    ("movies", "movie"), ("indices", "index"), ("matrices", "matrix"), ("vertices", "vertex"),
    ("criteria", "criterion")]

/-- The word without its last `n` bytes; a word that this would cut inside a character stays. -/
def stem (n : Nat) (word : Text) : Text :=
  let size := Text.byteSize word - n
  if Text.isBoundary word size then Text.takeBytes size word else word

/-- The singular of an English noun; the ending is recognised whatever its case. -/
def singular (word : Text) : Text :=
  let lower := Text.lower word
  let ends (ending : String) : Bool := ending.toList.isSuffixOf lower
  if uncountable.contains lower then word
  else
    match irregular.lookup lower with
    | some noun => noun
    | none =>
      if ends "ies" && decide (Text.byteSize lower > 3) then stem 3 word ++ "y"
      else if ends "sses" || ends "shes" || ends "ches" || ends "xes" || ends "zes" then
        stem 2 word
      else if ends "ss" || ends "us" || ends "is" || !ends "s" ||
          decide (Text.byteSize lower ≤ 2) then
        word
      else stem 1 word

end Bindery.Name

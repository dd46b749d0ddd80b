import Bindery.Text.Basic
import Bindery.Text.Alphabetic
import Bindery.Text.Case

namespace Bindery.Text

/-- The case of the letters read since the last word boundary. -/
inductive CaseRun where
  | boundary
  | lower
  | upper
  deriving DecidableEq, Repr

/-- The run after reading `c`; a character without case leaves it as it was. -/
def CaseRun.next (run : CaseRun) (c : Char) : CaseRun :=
  if isLowercase c then .lower else if isUppercase c then .upper else run

/--
The words of a piece, of which `word` has been read. A word ends after a small letter that a
capital follows, and before the last of several capitals that a small letter follows.
-/
def pieceWordsFrom (run : CaseRun) (word : Text) : Text → List Text
  | [] => [word]
  | [c] => [word ++ [c]]
  | c :: d :: rest =>
    if run.next c = .lower ∧ isUppercase d then
      (word ++ [c]) :: pieceWordsFrom .boundary [] (d :: rest)
    else if run = .upper ∧ isUppercase c ∧ isLowercase d then
      word :: pieceWordsFrom .boundary [c] (d :: rest)
    else pieceWordsFrom (run.next c) (word ++ [c]) (d :: rest)

def nameWords (name : Text) : List Text :=
  ((name.splitOnP fun c => !isAlphanumeric c).filter fun piece => !piece.isEmpty).flatMap
    (pieceWordsFrom .boundary [])

/-- The letters of a word after its first, in small; a last sigma takes its final form. -/
def lowerTail : Text → Text
  | [] => []
  | [c] => if c = 'Σ' then ['ς'] else lowerChar c
  | c :: rest => lowerChar c ++ lowerTail rest

/-- A word with a capital first letter and small letters after it. -/
def capitalized : Text → Text
  | [] => []
  | c :: rest => upperChar c ++ lowerTail rest

/-- The words of a name, each capitalized, without anything between them. -/
def upperCamel (name : Text) : Text :=
  (nameWords name).flatMap capitalized

/-- The words of a name in capitals, with an underscore between them. -/
def shoutySnake (name : Text) : Text :=
  join "_" ((nameWords name).map fun word => word.flatMap upperChar)

end Bindery.Text

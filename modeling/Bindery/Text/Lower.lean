import Bindery.Text.Basic
import Bindery.Text.Case

namespace Bindery.Text

/-- Whether the first character that is not case-ignorable has a case. -/
def startsCased (t : Text) : Bool :=
  match t.dropWhile isCaseIgnorable with
  | [] => false
  | c :: _ => isCased c

/-- Lowercases `t`, which follows the characters of `before`, the nearest of them first. -/
def lowerAfter (before : Text) : Text → Text
  | [] => []
  | c :: rest =>
    let small :=
      if c = 'Σ' then
        if startsCased before && !startsCased rest then ['ς'] else ['σ']
      else lowerChar c
    small ++ lowerAfter (c :: before) rest

def lower (t : Text) : Text :=
  lowerAfter [] t

end Bindery.Text

import Bindery.Text.Basic

namespace Bindery.Text

/-- Puts a text into a sorted list in which it may stand already. -/
def insertSorted (t : Text) : List Text → List Text
  | [] => [t]
  | s :: rest =>
    if t < s then t :: s :: rest else if t = s then s :: rest else s :: insertSorted t rest

def sortedSet (texts : List Text) : List Text :=
  texts.foldr insertSorted []

def sorted (texts : List Text) : List Text :=
  texts.mergeSort fun s t => !decide (t < s)

end Bindery.Text

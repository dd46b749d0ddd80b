import Bindery.Text.Basic

namespace Bindery.Path

/-- The texts between the slashes of a path. -/
def segments (path : Text) : List Text :=
  path.splitOnP (· == '/')

def isSilent (segment : Text) : Bool :=
  segment.isEmpty || segment == ("." : Text)

/-- Whether a segment leads to the parent directory. -/
def isAscent (segment : Text) : Bool :=
  segment == (".." : Text)

/-- Drops silent segments off the end, but never the first segment. -/
def dropSilentEnd : List Text → List Text
  | [] => []
  | first :: rest => first :: (rest.reverse.dropWhile isSilent).reverse

def fileName? (path : Text) : Option Text :=
  (dropSilentEnd (segments path)).getLast?.filter fun s => !isSilent s && !isAscent s

/-- The directory of a path, which is a point if the path has a single segment. -/
def parent (path : Text) : Text :=
  match dropSilentEnd (dropSilentEnd (segments path)).dropLast with
  | [] => "."
  | [[]] => "/"
  | front => Text.join "/" front

end Bindery.Path

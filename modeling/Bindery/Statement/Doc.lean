import Bindery.Text.Blank

namespace Bindery.Doc

/-- The lines of one comment, without the comment marks and without white space at their ends. -/
def commentLines (comment : Text) : List Text :=
  match Text.dropFront? "--" comment with
  | some rest => [Text.trimEnd ((Text.dropFront? " " rest).getD rest)]
  | none =>
    let opened := (Text.dropFront? "/*" comment).getD comment
    let inner := (Text.dropBack? "*/" opened).getD comment
    (Text.lines inner).map fun line =>
      match Text.dropFront? "*" (Text.trimStart line) with
      | some rest => Text.trimEnd ((Text.dropFront? " " rest).getD rest)
      | none => Text.trimEnd line

/-- The number of bytes of white space before the text of a line. -/
def indentOf (line : Text) : Nat :=
  Text.byteSize (line.takeWhile Text.isBlank)

def commonIndent (lines : List Text) : Nat :=
  (((lines.filter fun line => !Text.isBlankText line).map indentOf).min?).getD 0

/-- Takes `indent` bytes off a line, or all its indentation if they would cut a character. -/
def dedent (indent : Nat) (line : Text) : Text :=
  if Text.isBlankText line then []
  else if Text.isBoundary line indent then Text.dropBytes indent line
  else Text.trimStart line

/-- The documentation that a block of comments gives, if any text is left. -/
def clean? (comments : List Text) : Option Text :=
  let lines := comments.flatMap commentLines
  let joined := Text.join "\n" (lines.map (dedent (commonIndent lines)))
  let text := Text.trimEnd (joined.dropWhile (· == '\n'))
  if Text.isBlankText text then none else some text

end Bindery.Doc

import Bindery.Options
import Bindery.Text.Blank

namespace Bindery.Config

def isSpace (c : Char) : Bool :=
  c == ' ' || c == '\t'

/-- What may stand in comments and quotes: anything but control characters, and the tab. -/
def isPlain (c : Char) : Bool :=
  c == '\t' || (c.toNat ≥ 0x20 && c.toNat != 0x7F)

def isKeyChar (c : Char) : Bool :=
  c.isAlphanum || c == '_' || c == '-'

def hexDigit? (c : Char) : Option Nat :=
  if c.isDigit then some (c.toNat - '0'.toNat)
  else if 'a' ≤ c ∧ c ≤ 'f' then some (c.toNat - 'a'.toNat + 10)
  else if 'A' ≤ c ∧ c ≤ 'F' then some (c.toNat - 'A'.toNat + 10)
  else none

/-- The character with a number of the given count of hexadecimal digits. -/
def numberedChar? (count : Nat) (t : Text) : Option Char := do
  let digits ← (t.take count).mapM hexDigit?
  let value := digits.foldl (fun n d => 16 * n + d) 0
  if digits.length = count ∧ value.isValidChar then return Char.ofNat value else none

/-- The character that an escape stands for, and the number of characters that follow its
letter. -/
def escape? (letter : Char) (rest : Text) : Option (Char × Nat) :=
  match letter with
  | 'b' => some ('\x08', 0)
  | 't' => some ('\t', 0)
  | 'n' => some ('\n', 0)
  | 'f' => some ('\x0C', 0)
  | 'r' => some ('\r', 0)
  | '"' => some ('"', 0)
  | '\\' => some ('\\', 0)
  | 'u' => (numberedChar? 4 rest).map (·, 4)
  | 'U' => (numberedChar? 8 rest).map (·, 8)
  | _ => none

/-- Reads a text up to the closing double quote, and gives what is behind it. -/
def doubleQuoted? (t : Text) : Option (Text × Text) :=
  match t with
  | [] => none
  | '"' :: rest => some ([], rest)
  | '\\' :: letter :: rest => do
    let (c, n) ← escape? letter rest
    let (text, after) ← doubleQuoted? (rest.drop n)
    return (c :: text, after)
  | c :: rest => do
    if c = '\\' ∨ !isPlain c then none
    else
      let (text, after) ← doubleQuoted? rest
      return (c :: text, after)
termination_by t.length
decreasing_by all_goals simp only [List.length_cons, List.length_drop]; omega

/-- Reads a text up to the closing single quote, and gives what is behind it. -/
def singleQuoted? (t : Text) : Option (Text × Text) :=
  let text := t.takeWhile (· != '\'')
  match t.drop text.length with
  | [] => none
  | _ :: after => if text.all isPlain then some (text, after) else none

def key? : Text → Option (Text × Text)
  | '"' :: rest => doubleQuoted? rest
  | '\'' :: rest => singleQuoted? rest
  | t =>
    let key := t.takeWhile isKeyChar
    if key.isEmpty then none else some (key, t.drop key.length)

def value? : Text → Option (Setting × Text)
  | '"' :: rest => (doubleQuoted? rest).map fun (text, after) => (.text text, after)
  | '\'' :: rest => (singleQuoted? rest).map fun (text, after) => (.text text, after)
  | t =>
    match Text.dropFront? "true" t, Text.dropFront? "false" t with
    | some after, _ => some (.flag true, after)
    | none, some after => some (.flag false, after)
    | none, none => none

/-- Whether nothing is left of a line but white space and a comment. -/
def isLineEnd (t : Text) : Bool :=
  match t.dropWhile isSpace with
  | [] => true
  | c :: comment => c == '#' && comment.all isPlain

def setting? (line : Text) : Option (Text × Setting) := do
  let (key, afterKey) ← key? (line.dropWhile isSpace)
  match afterKey.dropWhile isSpace with
  | '=' :: rest =>
    let (value, after) ← value? (rest.dropWhile isSpace)
    if isLineEnd after then return (key, value) else none
  | _ => none

/-- The settings of a file, if every line can be read. -/
def settings? (text : Text) : Option (List (Text × Setting)) :=
  let body := (Text.dropFront? ['\uFEFF'] text).getD text
  ((Text.lines body).filter fun line => !isLineEnd line).mapM setting?

def hasDistinctKeys : List (Text × Setting) → Bool
  | [] => true
  | (key, _) :: rest => !(rest.map Prod.fst).contains key && hasDistinctKeys rest

/-- Reads the options in a configuration file. -/
def parse? (text : Text) : Option Options := do
  let settings ← settings? text
  if hasDistinctKeys settings then Options.ofSettings? settings else none

end Bindery.Config

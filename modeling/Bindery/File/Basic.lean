import Bindery.Text.Basic

namespace Bindery

/-- Why a file cannot be read. -/
inductive FileError where
  | notFound
  | isDirectory
  | notDirectory
  | notUtf8
  deriving DecidableEq, Repr

namespace FileError

def message : FileError → Text
  | .notFound => "No such file or directory (os error 2)"
  | .isDirectory => "Is a directory (os error 21)"
  | .notDirectory => "Not a directory (os error 20)"
  | .notUtf8 => "stream did not contain valid UTF-8"

end FileError

def decodeText (bytes : ByteArray) : Except FileError Text :=
  match String.fromUTF8? bytes with
  | some text => .ok text.toList
  | none => .error .notUtf8

def encodeText (text : Text) : ByteArray :=
  (String.ofList text).toUTF8

end Bindery

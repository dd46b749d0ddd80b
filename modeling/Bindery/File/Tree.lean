import Bindery.File.Basic
import Bindery.File.Path

namespace Bindery

/-- Files by the names that lead to them; a directory exists if a file is below it. -/
structure FileTree where
  files : List (List Text × ByteArray) := []

/-- Why a file cannot be put in its place. -/
inductive WriteError where
  | noDirectory
  | notReplaceable
  deriving DecidableEq, Repr

namespace FileTree

def content? (t : FileTree) (place : List Text) : Option ByteArray :=
  t.files.lookup place

def isDirectory (t : FileTree) (place : List Text) : Bool :=
  place.isEmpty || t.files.any fun (names, _) =>
    place.length < names.length && names.take place.length == place

def enter (t : FileTree) (here : List Text) (segment : Text) : Except FileError (List Text) :=
  if Path.isSilent segment then .ok here
  else if Path.isAscent segment then
    if here.isEmpty then .error .notFound else .ok here.dropLast
  else if t.isDirectory (here ++ [segment]) then .ok (here ++ [segment])
  else if (t.content? (here ++ [segment])).isSome then .error .notDirectory
  else .error .notFound

def follow (t : FileTree) (segments : List Text) : Except FileError (List Text) :=
  segments.foldlM t.enter []

def read (t : FileTree) (path : Text) : Except FileError Text := do
  let segments := Path.segments path
  let here ← t.follow segments.dropLast
  let name := segments.getLastD []
  match t.content? (here ++ [name]) with
  | some bytes => decodeText bytes
  | none => do
    let _ ← t.enter here name
    throw .isDirectory

def set (t : FileTree) (place : List Text) (bytes : ByteArray) : FileTree :=
  if (t.content? place).isSome then
    ⟨t.files.map fun (names, old) => if names = place then (names, bytes) else (names, old)⟩
  else ⟨t.files ++ [(place, bytes)]⟩

/-- Writes a file whole or not at all: the directory has to be there, and a directory is never
replaced. -/
def write (t : FileTree) (path text : Text) : Except WriteError FileTree :=
  match t.follow (Path.segments (Path.parent path)) with
  | .error _ => .error .noDirectory
  | .ok here =>
    let name := (Path.segments path).getLastD []
    if Path.isSilent name || Path.isAscent name || t.isDirectory (here ++ [name]) then
      .error .notReplaceable
    else .ok (t.set (here ++ [name]) (encodeText text))

end FileTree

end Bindery

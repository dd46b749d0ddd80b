import Bindery.Text.Blank

namespace Bindery.Module

def indent : Text := "    "

/-- How a character is written inside a single-quoted literal. -/
def escapeChar (c : Char) : Text :=
  if c = '\\' then ['\\', '\\']
  else if c = '\'' then ['\\', '\'']
  else if c = '\n' then ['\\', 'n']
  else if c = '\r' then ['\\', 'r']
  else if c = '\t' then ['\\', 't']
  else [c]

/-- A text as a single-quoted string literal. -/
def quote (value : Text) : Text :=
  "'" ++ value.flatMap escapeChar ++ "'"

/-- Doubles the percent signs, which the driver reads as the marks of placeholders. -/
def escapePercent (sql : Text) : Text :=
  Text.replaceChar '%' "%%" sql

/-- Writes a backslash before each quote of three quotes in a row. -/
def escapeTriple : Text → Text
  | '"' :: '"' :: '"' :: rest => ['\\', '"', '\\', '"', '\\', '"'] ++ escapeTriple rest
  | c :: rest => c :: escapeTriple rest
  | [] => []

/-- The body of a docstring: no backslash and no three quotes mean anything but themselves. -/
def escapeDoc (text : Text) : Text :=
  escapeTriple (Text.replaceChar '\\' ['\\', '\\'] text)

/-- The lines of a docstring after the first, indented unless they are empty. -/
def indentLines (margin : Text) : List Text → Text
  | [] => []
  | line :: rest =>
    (if line.isEmpty then [] else margin) ++ line ++ ['\n'] ++ indentLines margin rest

/--
A docstring with the given margin. It stands on one line if the text does and does not end in a
quote; otherwise the closing quotes have a line of their own.
-/
def docstring (text margin : Text) : Text :=
  let body := escapeDoc text
  let quotes : Text := "\"\"\""
  if !body.contains '\n' && body.getLast? != some '"' then
    margin ++ quotes ++ body ++ quotes ++ ['\n']
  else
    let lines :=
      match Text.lines body with
      | [] => []
      | first :: rest => first ++ ['\n'] ++ indentLines margin rest
    margin ++ quotes ++ lines ++ margin ++ quotes ++ ['\n']

end Bindery.Module

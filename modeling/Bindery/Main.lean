import Bindery.Command.Run

namespace Bindery.Command

def usage : String :=
  "Usage: sqlbind [OPTIONS] <FUNCTIONS_SQL> <OUTPUT_PY>\n\n" ++
  "Options:\n" ++
  "  -s, --schema-file <SQL>      Shared schema with tables and types\n" ++
  "  -v, --verbose                Log every step\n" ++
  "      --no-helpers             Leave the support code out of the module " ++
  "[alias: omit-runtime]\n" ++
  "      --allow-missing-schemas  Fall back to untyped rows for undeclared tables\n" ++
  "      --config <TOML>          File with generation options [env: SQLBIND_CONFIG]\n" ++
  "  -h, --help                   Print help\n" ++
  "  -V, --version                Print version"

def complaint : Interruption → String
  | .unknownArgument => "unexpected argument found"
  | .invalidValue => "a value is required"
  | .repeatedArgument => "an argument cannot be used multiple times"
  | .unexpectedValue => "unexpected value for a switch"
  | .missingArgument => "required arguments were not provided"
  | .help | .version => ""

/-- Reads a file, and tells the errors apart that are reported in words of their own. A path that
leads through a file fails when it is opened, and a directory fails only when it is read. -/
def readFile (path : Text) : IO (Except FileError Text) := do
  try
    return decodeText (← IO.FS.readBinFile (String.ofList path))
  catch error =>
    match error with
    | .inappropriateType (some _) _ _ => return .error .notDirectory
    | .inappropriateType none _ _ => return .error .isDirectory
    | _ => return .error .notFound

def writeFile (call : Call) (text : Text) : IO (Except CallError Unit) := do
  let directory := String.ofList (Path.parent call.output)
  let temporary := directory ++ "/.tmp" ++ toString (← IO.rand 0 1000000000000)
  try
    IO.FS.writeFile temporary (String.ofList text)
  catch _ =>
    return .error (call.writeError .noDirectory)
  try
    IO.FS.rename temporary (String.ofList call.output)
    return .ok ()
  catch _ =>
    try IO.FS.removeFile temporary catch _ => pure ()
    return .error (call.writeError .notReplaceable)

def report (error : CallError) : IO UInt32 := do
  let cause := (error.cause?.map fun cause => ": " ++ String.ofList cause.message).getD ""
  IO.eprintln ("error: " ++ String.ofList error.message ++ cause)
  return 1

def runCall (call : Call) : IO UInt32 := do
  let contents ← call.inputs.mapM fun path => do
    return (path, ← readFile path)
  match call.generate fun path => (contents.lookup path).getD (.error .notFound) with
  | .error error => report error
  | .ok generated =>
    for diagnostic in generated.diagnostics do
      IO.eprintln ("warning: " ++ String.ofList diagnostic.message)
    match ← writeFile call generated.code with
    | .error error => report error
    | .ok () => return 0

end Bindery.Command

open Bindery in
def main (arguments : List String) : IO UInt32 := do
  let config ← IO.getEnv "SQLBIND_CONFIG"
  match Call.parse (arguments.map String.toList) (config.map String.toList) with
  | .ok call => Command.runCall call
  | .error .help =>
    IO.println Command.usage
    return 0
  | .error .version =>
    IO.println "sqlbind 0.1.0"
    return 0
  | .error interruption =>
    IO.eprintln ("error: " ++ Command.complaint interruption ++ "\n\n" ++ Command.usage)
    return 2

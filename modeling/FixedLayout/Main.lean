import FixedLayout.CommandLine.Run

/-!
# The program

The outer layer: it reads the registry file that the command line names, prints the
answer, and turns a failure into a message and an exit code.
-/

namespace FixedLayout.Program

open FixedLayout.CommandLine

/-- Reads a file as the command line refers to it. -/
def readRegistryFile (file : String) : IO (Except FileFault String) := do
  try
    let text ← IO.FS.readFile file
    pure (.ok text)
  catch failure =>
    match failure with
    | .noFileOrDirectory .. => pure (.error .notFound)
    | other => pure (.error (.other (toString other)))

/-- What is printed for a command line that is not carried out. -/
def usageText : String :=
  "Usage: fixedlayout [--schemas FILE] <COMMAND>\n\n" ++
    "Commands:\n" ++
    "  schemas                                 Print the registry with its sizes\n" ++
    "  size --type T [--variant V]             Print the encoded size of a type\n" ++
    "  encode --type T --value JSON            Encode a JSON value as base64\n" ++
    "  decode --type T --data BASE64 [--all]   Decode base64 data as JSON\n"

/-- The content of the file that the command line names, if it names one. -/
def readNamedFile (words : List String) : IO (Except FileFault String) :=
  match parse words with
  | .ok ⟨some file, _⟩ => readRegistryFile file
  | _ => pure (.error .notFound)

/-- Runs one command line and returns its exit code. -/
def run (words : List String) : IO UInt32 := do
  let content ← readNamedFile words
  match respond (fun _ => content) words with
  | .ok text => do
      IO.println text
      pure 0
  | .error (.usage fault) => do
      if fault = .help then
        IO.print usageText
        pure 0
      else if fault = .version then
        IO.println "fixedlayout 0.1.0"
        pure 0
      else
        IO.eprint usageText
        pure 2
  | .error failure => do
      IO.eprintln ("Error: " ++ failure.message)
      pure 1

end FixedLayout.Program

/-- Runs the command line of the program. -/
def main (words : List String) : IO UInt32 := FixedLayout.Program.run words

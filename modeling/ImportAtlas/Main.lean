import ImportAtlas.Tools.Program

/-!
# The command line

The first argument names a program, and the rest are its arguments. The programs here work on dependency lines,
from the standard input or from the files that are named; trees of source files are not made here, so every file
counts as a program without statements.
-/

namespace ImportAtlas.CommandLine

partial def readAll (stream : IO.FS.Stream) (text : String) : IO String := do
  let line ← stream.getLine
  if line.isEmpty then return text else readAll stream (text ++ line)

def namedFiles (fs : FileSystem) (arguments : List String) : IO FileSystem :=
  arguments.foldlM (fun fs (path : String) => do
    try
      let text ← IO.FS.readFile path
      return fs.add path (.file (.plain text))
    catch _ => return fs) fs

def session (arguments : List String) : IO Session := do
  let cwd := (← IO.currentDir).toString
  let empty : FileSystem := { root := .emptyDir, cwd }
  return { files := ← namedFiles (empty.add cwd .emptyDir) arguments }

def finish (ending : Program.Ending) : IO UInt32 := do
  (← IO.getStdout).putStr ending.console.out
  (← IO.getStderr).putStr ending.console.err
  match ending.status with
  | .code n => return UInt32.ofNat n.toNat
  | .message text =>
    (← IO.getStderr).putStrLn text
    return 1

def run (program : Program) (arguments : List String) : IO UInt32 := do
  let input ← readAll (← IO.getStdin) ""
  let s ← session arguments
  let (ending, s) := program.execute arguments input s
  match ending.handover with
  | none => finish ending
  | some next =>
    match Program.ofName? next.name with
    | some program => finish (program.execute (next.arguments.drop 1) input s).1
    | none => finish ending

end ImportAtlas.CommandLine

open ImportAtlas in
def main (arguments : List String) : IO UInt32 := do
  match arguments with
  | [] =>
    (← IO.getStderr).putStrLn ("Programs: " ++ ", ".intercalate (Program.table.map (·.1)))
    return 2
  | name :: rest =>
    match Program.ofName? name with
    | some program => CommandLine.run program rest
    | none =>
      (← IO.getStderr).putStrLn ("No such program: " ++ name)
      return 2

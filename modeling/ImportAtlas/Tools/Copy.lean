import ImportAtlas.Analysis.Lines
import ImportAtlas.Files.Walk
import ImportAtlas.Tools.Manual

/-!
# The program that copies files

The files of the dependencies are copied to a directory, with the same names below it as below their roots.
-/

namespace ImportAtlas.Tools

structure CopySettings where
  overwrite : Bool := false
  /-- Directories without the file that makes them packages get one. -/
  addInits : Bool := false

def copyFlags : List (Flag CopySettings) :=
  [{ names := ["-o", "--overwrite"], effect := .set fun s => { s with overwrite := true } },
    { names := ["-i", "--insert-package-inits"], effect := .set fun s => { s with addInits := true } }]

def copyManual : Manual where
  program := "sfood-copy"
  text := "Read a snakefood dependencies file and copy all the files to a destination\n" ++
    "directory, using the same filename to its python root."

def guardTarget (settings : CopySettings) (path : String) : Run Unit := do
  if !settings.overwrite && (← Run.files).exists? path then
    Run.message .error ("Cannot overwrite '" ++ path ++ "'.")
    throw (.exit (.code 1))

/-- A directory is made if it is missing. -/
def readyDir (dir : String) : Run Unit := do
  if !(← Run.files).exists? dir then Run.change (Change.makeDirs dir dir.length)

def copyFound (source target : String) : Run Unit := do
  if (← Run.files).exists? source then Run.change (Change.copy source target)
  else Run.message .error ("Could not copy file '" ++ source ++ "'.")

def copyTo (settings : CopySettings) (source target : String) : Run Unit := do
  guardTarget settings target
  readyDir (Path.parent target)
  Run.printLine ("Copying: " ++ source)
  copyFound source target

/-- The name of what is copied: a package stands for its initial file. -/
def copiedName (fs : FileSystem) (root name : String) : String :=
  if fs.isDir (Path.join root name) then Path.join name "__init__.py" else name

def copyOne (settings : CopySettings) (target : String) (root name : Value) : Run Unit := do
  let root ← root.onlyText
  let name ← name.onlyText
  let name := copiedName (← Run.files) root name
  copyTo settings (Path.join root name) (Path.join target name)

def addInits (top : String) : Run Unit := do
  ((← Run.files).walk (fun _ dirs => dirs) top).forM fun visit => do
    let init := Path.join visit.dir "__init__.py"
    if visit.dir ≠ top && !(← Run.files).exists? init then
      Run.printLine ("Creating: " ++ init)
      Run.change (Change.write init (.plain ""))

def copyAll (settings : CopySettings) (target : String) (dependencies : List Value) : Run Unit := do
  let _ ← dependencies.foldlM (Run.useReferences (copyOne settings target)) [Depends.nothing]
  if settings.addInits then addInits target

def copy (arguments : List String) : Run Unit := do
  let (settings, arguments) ← Run.ownOptions copyManual copyFlags {} arguments
  match arguments with
  | [target] =>
    guardTarget settings target
    copyAll settings target (← Run.allValues (← Run.takeInput))
  | _ => Run.misused copyManual "You must specify the destination root."

end ImportAtlas.Tools

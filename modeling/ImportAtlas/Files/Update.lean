import ImportAtlas.Files.Resolve

/-!
# Changing files

Making, writing, copying and removing. A change that stops at a fault keeps what it did before it.
-/

namespace ImportAtlas

abbrev Change := EStateM Fault FileSystem

namespace FileSystem

def put (fs : FileSystem) (parts : List String) (e : Entry) : FileSystem :=
  { fs with root := Entry.put e parts fs.root }

/-- Puts an entry at a path, with the directories above it. -/
def add (fs : FileSystem) (path : String) (e : Entry) : FileSystem :=
  fs.put (appendParts (fs.start path) (Path.segments path)) e

def remove (fs : FileSystem) (path : String) : FileSystem :=
  { fs with root := Entry.remove (appendParts (fs.start path) (Path.segments path)) fs.root }

/-- The path ends in a slash and names something in a directory that exists. -/
def asksDirectory (fs : FileSystem) (path : String) : Bool :=
  let short := String.ofList (Path.withoutSlashes path.toList)
  let name := Path.base short
  let above := Path.parent short
  short ≠ path && name ∉ ["", ".", ".."] && fs.isDir (if above = "" then "." else above)

/-- Where a file of this path is written: over the one that is there, or into its directory. -/
def writeSite (fs : FileSystem) (path : String) : Except Fault (List String) := do
  if fs.asksDirectory path then .error .isDirectory
  let parts ← fs.site path
  match fs.root.get? parts with
  | some (.dir _) => .error .isDirectory
  | _ => return parts

/-- Where a directory of this path is made. Nothing may stand there. -/
def dirSite (fs : FileSystem) (path : String) : Except Fault (List String) := do
  if path = "" then .error .noSuchFile
  let path := String.ofList (Path.withoutSlashes path.toList)
  let above := Path.parent path
  let name := Path.base path
  let parts ← fs.place (if above = "" then "." else above)
  match fs.root.get? parts with
  | some (.dir items) =>
    if name = "" || name = "." || name = ".." || (items.lookup name).isSome then .error .fileExists
    else return parts ++ [name]
  | _ => .error .notDirectory

/-- What a copy of the file is. An archive is copied with all it holds. -/
def content (fs : FileSystem) (path : String) : Except Fault Entry := do
  match ← fs.locate path with
  | .dir _ => .error .isDirectory
  | e => .ok e

def isSame (fs : FileSystem) (a b : String) : Bool :=
  match fs.place a, fs.place b with
  | .ok x, .ok y => x = y
  | _, _ => false

end FileSystem

namespace Change

open FileSystem

def write (path : String) (source : Source) : Change Unit := do
  let parts ← (← get).writeSite path
  modify fun fs => fs.put parts (.file source)

def makeDir (path : String) : Change Unit := do
  let parts ← (← get).dirSite path
  modify fun fs => fs.put parts .emptyDir

/-- Makes a directory after those above it that are missing. That one of those above turns out to be
there is no fault. The path gets shorter with each step, so its length is fuel enough. -/
def makeDirs (path : String) : Nat → Change Unit
  | 0 => makeDir path
  | fuel + 1 => do
    let short := if Path.base path = "" then Path.parent path else path
    let head := Path.parent short
    let tail := Path.base short
    if head ≠ "" && tail ≠ "" && !(← get).exists? head then
      try makeDirs head fuel
      catch fault => if fault ≠ .fileExists then throw fault
      if tail ≠ "." then makeDir path
    else makeDir path

def copy (source target : String) : Change Unit := do
  if (← get).isSame source target then throw .sameFile
  let content ← (← get).content source
  match (← get).writeSite target with
  | .ok parts => modify fun fs => fs.put parts content
  | .error .isDirectory => throw (if (← get).exists? target then .isDirectory else .noSuchFile)
  | .error fault => throw fault

end Change

end ImportAtlas

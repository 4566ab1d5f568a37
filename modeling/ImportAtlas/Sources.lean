import ImportAtlas.Files.Walk
import ImportAtlas.Text.Word

/-!
# Python files

Which files are Python programs, and which of them lie below given paths.
-/

namespace ImportAtlas

/-- The word `python` starts somewhere on the line, `before` being the character before it. -/
def namesPython (before : Char) (line : List Char) : Bool :=
  (!Text.isWord before && "python".toList.isPrefixOf line) ||
    match line with
    | [] => false
    | '\n' :: _ => false
    | c :: rest => namesPython c rest

/-- The text starts with a line that gives it to a Python interpreter. -/
def hasInterpreterLine : List Char → Bool
  | '#' :: '!' :: rest => namesPython '!' rest
  | _ => false

namespace FileSystem

/-- Whether a path is a Python file: by its extension, or by the start of its text. `some false` is said of
what cannot be read and `none` of other files. -/
def python? (fs : FileSystem) (path : String) : Option Bool :=
  if Text.endsIn path ".py" then some true
  else
    match fs.read path with
    | .error _ => some false
    | .ok source => if hasInterpreterLine (source.text.toList.take 64) then some true else none

def isPython (fs : FileSystem) (path : String) : Bool :=
  fs.python? path = some true

inductive Found where
  | file (path : String)
  | missing (path : String)
  deriving DecidableEq, Repr

def unignored (ignores : List String) (names : List String) : List String :=
  names.filter fun name => name ∉ ignores

def pythonFilesAt (fs : FileSystem) (ignores : List String) (path : String) : List Found :=
  if !fs.exists? path then [.missing path]
  else if !fs.isDir path then if fs.isPython path then [.file path] else []
  else
    (fs.walk (fun _ dirs => unignored ignores dirs) path).flatMap fun v =>
      ((v.files.map (Path.join v.dir)).filter fs.isPython).map .file

/-- The Python files at or below the paths, which are made absolute first unless they are known to be. -/
def pythonFiles (fs : FileSystem) (ignores paths : List String) (absolute : Bool := false) : List Found :=
  paths.flatMap fun path => fs.pythonFilesAt ignores (if absolute then path else fs.realPath path)

end FileSystem

end ImportAtlas

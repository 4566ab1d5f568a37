import ImportAtlas.Sources

/-!
# Package roots

A package is a directory with a file `__init__.py`. A package root is a directory that is no package and
has one directly in it, so that it can stand on the search path. Directories with a dot in their names
cannot be imported and do not count.
-/

namespace ImportAtlas

/-- Where a name is looked up to see whether a search passes it over. -/
inductive Ignores where
  | names (known : List String)
  /-- Every piece of the text counts as a name. -/
  | piecesOf (text : String)
  | unusable
  deriving DecidableEq, Repr

namespace Ignores

def has : Ignores → String → Except Fault Bool
  | names known, name => .ok (name ∈ known)
  | piecesOf text, name => .ok (Text.holds name.toList text.toList)
  | unusable, _ => .error .wrongKind

/-- The names that are not passed over. Where nothing can be looked up nothing is. -/
def remaining (ignores : Ignores) (dirs : List String) : List String :=
  dirs.filter fun name => !(ignores.has name).toOption.getD false

theorem remaining_names (known dirs : List String) :
    (names known).remaining dirs = FileSystem.unignored known dirs := by
  simp [remaining, has, FileSystem.unignored, Except.toOption]

end Ignores

/-- The elements that pass a test, and the others. -/
def separate {α : Type} (test : α → Except Fault Bool) (items : List α) : Except Fault (List α × List α) :=
  items.foldlM (fun (passed, failed) item => do
    if ← test item then return (passed ++ [item], failed) else return (passed, failed ++ [item])) ([], [])

theorem separate_ok {α : Type} (test : α → Bool) (items : List α) :
    separate (fun a => .ok (test a)) items = .ok (items.filter test, items.filter fun a => !test a) := by
  have run : ∀ passed failed, items.foldlM (fun (groups : List α × List α) item =>
      if test item then Except.ok (groups.1 ++ [item], groups.2) else .ok (groups.1, groups.2 ++ [item]))
        (passed, failed) = (.ok (passed ++ items.filter test, failed ++ items.filter fun a => !test a) :
          Except Fault _) := by
    induction items with
    | nil => intro passed failed; simp [pure, Except.pure]
    | cons item items ih =>
      intro passed failed
      rw [List.foldlM_cons]
      cases h : test item <;> simp [h, bind, Except.bind, ih]
  exact run [] []

namespace FileSystem

def isPackageDir (fs : FileSystem) (dir : String) : Bool :=
  fs.exists? (Path.join dir "__init__.py")

def isPackageIn (fs : FileSystem) (ignores : Ignores) (dir name : String) : Except Fault Bool := do
  if '.' ∈ name.toList then return false
  if ← ignores.has name then return false
  return fs.isPackageDir (Path.join dir name)

/-- The directory is a package root: it holds installed packages, or a package of its own. Its files are looked
up and have no say. -/
def isPackageRoot (fs : FileSystem) (ignores : Ignores) (dir : String) : Except Fault Bool := do
  if !fs.exists? dir || fs.isPackageDir dir then return false
  let (dirs, others) ← separate (fun name => .ok (fs.isDir (Path.join dir name))) (← fs.names dir)
  others.forM fun name => discard (ignores.has name)
  if "site-packages" ∈ dirs then return true
  dirs.anyM (fs.isPackageIn ignores dir)

/-- The first directory at or above `dir` that is no package. The top directory is the one above itself: if it is
a package, the climb goes on for ever. -/
def leavePackages (fs : FileSystem) : Nat → String → Except Fault String
  | 0, _ => .error .endless
  | fuel + 1, dir =>
    if !fs.isPackageDir dir then .ok dir
    else if dir = "" then .error .brokenPromise
    else fs.leavePackages fuel (Path.parent dir)

def packageRoot (fs : FileSystem) (ignores : Ignores) (path : String) : Except Fault (Option String) := do
  let dir := if fs.isDir path then path else Path.parent path
  let top ← fs.leavePackages (dir.length + 2) dir
  if top = "" then return none
  return if ← fs.isPackageRoot ignores top then some top else none

/-- The package roots below a directory. Nothing below a root is searched. -/
def rootsBelow (fs : FileSystem) (ignores : Ignores) (path : String) : Except Fault (List String) := do
  let top := if fs.isDir path then path else Path.parent path
  let isRoot (dir : String) := (fs.isPackageRoot ignores dir).toOption.getD false
  let visits := fs.walk (fun dir dirs => if isRoot dir then [] else ignores.remaining dirs) top
  visits.forM fun v => do
    v.dirs.forM fun name => discard (ignores.has name)
    discard (fs.isPackageRoot ignores v.dir)
  return (visits.map (·.dir)).filter isRoot

/-- The roots for one absolute path: the one it lies in, else the directory of a file, else those below
a directory. -/
def rootsFor (fs : FileSystem) (ignores : Ignores) (path : String) : Except Fault (List String) := do
  match ← fs.packageRoot ignores path with
  | some root => return [root]
  | none =>
    if fs.isFile path then return [Path.parent path]
    else if fs.isDir path then fs.rootsBelow ignores path
    else .error .brokenPromise

/-- The root of a file, and its name from there on. A file outside all roots is named in its directory. -/
def relativeTo (fs : FileSystem) (ignores : Ignores) (path : String) : Except Fault (String × String) := do
  match ← fs.packageRoot ignores (fs.realPath path) with
  | none => return (Path.parent path, Path.base path)
  | some root => return (root, Text.dropFirst path (root.length + 1))

end FileSystem

end ImportAtlas

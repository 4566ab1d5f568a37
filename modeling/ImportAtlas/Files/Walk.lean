import ImportAtlas.Files.Resolve

/-!
# Walks through directories

A walk visits a directory before those below it, in order of their names. Links to directories are
listed among the directories and are not entered.
-/

namespace ImportAtlas

structure Visit where
  dir : String
  dirs : List String
  files : List String
  deriving DecidableEq, Repr

namespace FileSystem

/-- The entry of this path is, or leads to, a directory. -/
def leadsToDir (fs : FileSystem) (path : String) : Entry → Bool
  | .dir _ => true
  | .link _ => fs.isDir path
  | _ => false

mutual

/-- The visits from `top` down. `keep` chooses which of the directories in a directory are entered. -/
def visits (fs : FileSystem) (keep : String → List String → List String) (top : String) :
    Entry → List Visit
  | .dir items =>
    let (dirs, files) := items.partition fun (name, e) => fs.leadsToDir (Path.join top name) e
    let dirs := dirs.map (·.1)
    { dir := top, dirs, files := files.map (·.1) } :: visitsIn fs keep top (keep top dirs) items
  | _ => []

def visitsIn (fs : FileSystem) (keep : String → List String → List String) (top : String)
    (kept : List String) : List (String × Entry) → List Visit
  | [] => []
  | (name, e) :: rest =>
    (if name ∈ kept then visits fs keep (Path.join top name) e else []) ++ visitsIn fs keep top kept rest

end

/-- The walk from a path. There is none from what is no directory. -/
def walk (fs : FileSystem) (keep : String → List String → List String) (top : String) : List Visit :=
  match fs.locate top with
  | .ok e => fs.visits keep top e
  | .error _ => []

/-! ## What has changed -/

/-- The files below a directory with their texts, and the directories without entries, which end in
a slash and have no text. Links that lead nowhere are left out. -/
def snapshot (fs : FileSystem) (top : String) : List (String × Option String) :=
  (fs.walk (fun _ dirs => dirs) top).flatMap fun v =>
    let relative (path : String) := Text.dropFirst path (top.length + 1)
    let texts := v.files.filterMap fun name =>
      match fs.read (Path.join v.dir name) with
      | .ok source => some (relative (Path.join v.dir name), some source.text)
      | .error _ => none
    if v.dirs.isEmpty && v.files.isEmpty then [(relative v.dir ++ "/", none)] else texts

def changes (before after : List (String × Option String)) : List (String × Option String) :=
  after.filter fun item => item ∉ before

end FileSystem

end ImportAtlas

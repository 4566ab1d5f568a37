import ImportAtlas.Files.Basic

/-!
# Following paths

`locate` follows a path through links to the entry that it means. `realPath` takes the links out of a
path and keeps what does not exist as it is written.
-/

namespace ImportAtlas.FileSystem

/-- So many links may stand on one path. -/
def linkLimit : Nat := 40

/-- Follows `todo` from the directory `here`, the first link and what is left then by `jump`. With `create`, the
last part need not exist. -/
def followTo (root : Entry) (create : Bool) (jump : List String → List String → Except Fault (List String))
    (here : List String) : List String → Except Fault (List String)
  | [] => .ok here
  | part :: rest =>
    match root.get? here with
    | some (.dir items) =>
      if part = "" || part = "." then followTo root create jump here rest
      else if part = ".." then followTo root create jump here.dropLast rest
      else
        match items.lookup part with
        | some (.link target) =>
          jump (if Path.isAbsolute target then [] else here) (Path.segments target ++ rest)
        | some _ => followTo root create jump (here ++ [part]) rest
        | none => if create && rest.isEmpty then .ok (here ++ [part]) else .error .noSuchFile
    | some _ => .error .notDirectory
    | none => .error .noSuchFile

def follow (root : Entry) (create : Bool) (limit : Nat) : List String → List String → Except Fault (List String) :=
  match limit with
  | 0 => followTo root create fun _ _ => .error .tooManyLinks
  | limit + 1 => followTo root create (follow root create limit)

def start (fs : FileSystem) (path : String) : List String :=
  if Path.isAbsolute path then [] else (Path.segments fs.cwd).filter (· ≠ "")

/-- The place that a path means, its links followed. -/
def place (fs : FileSystem) (path : String) : Except Fault (List String) :=
  if path = "" then .error .noSuchFile
  else follow fs.root false linkLimit (fs.start path) (Path.segments path)

/-- The place where a file of this path is, or would be made. -/
def site (fs : FileSystem) (path : String) : Except Fault (List String) :=
  if path = "" then .error .noSuchFile
  else follow fs.root true linkLimit (fs.start path) (Path.segments path)

/-- The entry that a path means. It is never a link. -/
def locate (fs : FileSystem) (path : String) : Except Fault Entry := do
  let parts ← fs.place path
  match fs.root.get? parts with
  | some e => .ok e
  | none => .error .noSuchFile

/-! ## Questions about paths -/

def exists? (fs : FileSystem) (path : String) : Bool :=
  (fs.place path).isOk

def isDir (fs : FileSystem) (path : String) : Bool :=
  match fs.locate path with
  | .ok (.dir _) => true
  | _ => false

def isFile (fs : FileSystem) (path : String) : Bool :=
  match fs.locate path with
  | .ok (.dir _) => false
  | .ok _ => true
  | .error _ => false

def names (fs : FileSystem) (path : String) : Except Fault (List String) := do
  match ← fs.locate path with
  | .dir items => .ok (items.map (·.1))
  | _ => .error .notDirectory

def read (fs : FileSystem) (path : String) : Except Fault Source := do
  match ← fs.locate path with
  | .file source => .ok source
  | .archive _ => .ok (.plain "")
  | _ => .error .isDirectory

def archive? (fs : FileSystem) (path : String) : Option (List String) :=
  match fs.locate path with
  | .ok (.archive names) => some names
  | _ => none

/-! ## Paths without links -/

inductive Step where
  | part (name : String)
  /-- The target of the link at this place has been followed to its end. -/
  | done (link : List String)

/-- A path and further parts, taken as text. -/
def appendParts (path : List String) (parts : List String) : List String :=
  parts.foldl (fun path part =>
    if part = "" || part = "." then path
    else if part = ".." then path.dropLast
    else path ++ [part]) path

def Step.parts (steps : List Step) : List String :=
  steps.filterMap fun
    | .part name => some name
    | .done _ => none

/-- Where the links that have been met lead, as far as it is known. -/
abbrev Seen := List (List String × Option (List String))

/-- Takes the links out of `path` and the steps that follow it. A link that is met again before its end is known
leads back to itself, and what follows it stays as it is written; `enter` goes on at a link that is new. -/
def unlinkTo (root : Entry) (enter : Seen → List String → List String → String → List Step → List String)
    (seen : Seen) (path : List String) : List Step → List String
  | [] => path
  | .done l :: rest => unlinkTo root enter ((l, some path) :: seen) path rest
  | .part part :: rest =>
    if part = "" || part = "." then unlinkTo root enter seen path rest
    else if part = ".." then unlinkTo root enter seen path.dropLast rest
    else
      let next := path ++ [part]
      match root.get? next with
      | some (.link target) =>
        match seen.lookup next with
        | some (some known) => unlinkTo root enter seen known rest
        | some none => appendParts next (Step.parts rest)
        | none => enter seen path next target rest
      | _ => unlinkTo root enter seen next rest

def unlink (root : Entry) (limit : Nat) : Seen → List String → List Step → List String :=
  match limit with
  | 0 => unlinkTo root fun _ _ next _ rest => appendParts next (Step.parts rest)
  | limit + 1 => unlinkTo root fun seen path next target rest =>
    unlink root limit ((next, none) :: seen) (if Path.isAbsolute target then [] else path)
      ((Path.segments target).map .part ++ .done next :: rest)

/-- The absolute path without links. Each link is opened once, so their number is enough. -/
def realPath (fs : FileSystem) (path : String) : String :=
  Path.ofParts (unlink fs.root fs.root.links [] (fs.start path) ((Path.segments path).map .part))

end ImportAtlas.FileSystem

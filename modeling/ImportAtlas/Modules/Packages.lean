import ImportAtlas.Modules.Contents
import ImportAtlas.Modules.Loading
import ImportAtlas.Session

/-!
# Packages

Going through the modules of packages needs the packages to be loaded, for only then are their directories
known. What is found before a fault is still handed out.
-/

namespace ImportAtlas

namespace Run

/-! ## Importers -/

/-- The importer for an entry of a search path. What was found out about the entry is remembered. -/
def importerFor (entry : Value) : Run Importer := do
  let path ← entry.onlyText
  let s ← get
  let site ← match s.importers.lookup path with
    | some site => pure site
    | none => do
      let site := s.files.archiveSite? path
      set { s with importers := s.importers ++ [(path, site)] }
      pure site
  match site with
  | some site => return .archive site
  | none => return .directory (some path)

/-! ## Loading -/

/-- The file of a module in one of the directories, and its directory if it is a package. -/
def locateModule (fs : FileSystem) (name : String) : List Value → Option (String × Option String)
  | [] => none
  | .str dir :: rest =>
    let package := Path.join dir name
    if fs.isFile (Path.join package "__init__.py") then some (Path.join package "__init__.py", some package)
    else if fs.isFile (Path.join dir (name ++ ".py")) then some (Path.join dir (name ++ ".py"), none)
    else locateModule fs name rest
  | _ :: rest => locateModule fs name rest

/-- Loads a module whose parent has been loaded, from the given directories. There is none without a name. -/
def loadFrom (fullName last : String) (dirs : List Value) : Run Unit := do
  match locateModule (← files) last (if last = "" then [] else dirs) with
  | none => throw .moduleNotFound
  | some (file, package) =>
    Finder.runSource (← (← files).read file).text
    modify fun s => { s with loaded := s.loaded ++ [(fullName, package.map ([·]))] }

/-- Loads the parts of a dotted name one after another, `above` being those that have been loaded. -/
def loadParts (above : List String) : List String → Run Unit
  | [] => pure ()
  | part :: rest => do
    let fullName := ".".intercalate (above ++ [part])
    let s ← get
    if (s.loaded.lookup fullName).isNone then
      if above.isEmpty then loadFrom fullName part s.searchPath
      else
        match s.loaded.lookup (".".intercalate above) with
        | some (some dirs) => loadFrom fullName part (dirs.map .str)
        | _ => throw .moduleNotFound
    loadParts (above ++ [part]) rest

def loadModule (name : String) : Run Unit :=
  loadParts [] (Text.pieces name '.')

def packageDirs (name : String) : Run (List Value) := do
  match (← get).loaded.lookup name with
  | some (some dirs) => return dirs.map .str
  | _ => return []

def searchPath : Run (List Value) := do
  return (← get).searchPath

/-! ## Going through modules -/

/-- The importers among which a module is looked for: those of its package, or those of the search path
and then the search path as a whole. -/
def importers (name : Value) : Listing Importer Unit := do
  let name ← (name.text : Run String)
  if Text.beginsWith name "." then throw (.loadFailed "Relative module names not supported")
  let parts := Text.pieces name '.'
  let isDotted := decide (1 < parts.length)
  let package := ".".intercalate parts.dropLast
  if isDotted then (loadModule package : Run Unit)
  let entries ← if isDotted then packageDirs package else searchPath
  entries.forM fun entry => do Listing.emit (← importerFor entry)
  if !isDotted then Listing.emit (.directory none)

inductive FoundLoader where
  | loader (m : Loader)
  | archive (site : ArchiveSite)

def inArchive (fs : FileSystem) (site : ArchiveSite) (name : String) : Bool :=
  let path := site.inside ++ ((Text.pieces name '.').getLast?).getD ""
  let names := (fs.archive? site.archive).getD []
  ["/__init__.pyc", "/__init__.py", ".pyc", ".py"].any fun e => path ++ e ∈ names

def findIn (name : String) : Importer → Run (Option FoundLoader)
  | .directory dir => do return (← (← finder).find dir name).map .loader
  | .archive site => do return if inArchive (← files) site name then some (.archive site) else none

def firstFound (name : String) : List Importer → Run (Option FoundLoader)
  | [] => return none
  | importer :: rest => do
    match ← findIn name importer with
    | some found => return some found
    | none => firstFound name rest

def loaderOf (name : Value) : Run (Option FoundLoader) := do
  let (importers, fault) ← (importers name).all
  match ← firstFound (← name.text) importers with
  | some found => return some found
  | none =>
    match fault with
    | some fault => throw fault
    | none => return none

structure Offer where
  importer : Importer
  content : Content

def offers (start : String) (names : List String) (importer : Importer) : Listing Offer (List String) := do
  let fs ← (files : Run FileSystem)
  let contents ← (importer.contents fs start : Except Fault _)
  contents.foldlM (fun names content => do
    if content.name ∈ names then return names
    Listing.emit { importer, content }
    return names ++ [content.name]) names

/-- The modules on a path, or on the search path. Of two with one name the first is taken. -/
def modulesOn (path : Option (List Value)) (start : String) : Listing Offer Unit := do
  match path with
  | some entries =>
    let _ ← entries.foldlM (fun names entry => do offers start names (← importerFor entry)) []
  | none =>
    let (importers, fault) ← ((importers (.str "")).all : Run _)
    let _ ← importers.foldlM (offers start) []
    match fault with
    | some fault => throw fault
    | none => pure ()

inductive Walked where
  | module (offer : Offer)
  | failed (name : String)

/-- The fault is the failure of an import, and not of something else on the way. -/
def isImportFailure : Fault → Bool
  | .moduleNotFound => true
  | .loadFailed _ => true
  | _ => false

/-- Loads a package; the answer is whether that went well. Failures are recorded if `records` says so;
otherwise only failures of imports are passed over. -/
def tryPackage (records : Bool) (name : String) : Listing Walked Bool := do
  try
    (loadModule name : Run Unit)
    return true
  catch fault =>
    if records then Listing.emit (.failed name)
    else if !isImportFailure fault then throw fault
    return false

def walkPackages (records : Bool) : Nat → Option (List Value) → String → Listing Walked Unit
  | 0, _, _ => throw .tooDeep
  | fuel + 1, path, start => do
    let (offers, fault) ← ((modulesOn path start).all : Run _)
    let _ ← offers.foldlM (fun seen offer => do
      let name := offer.content.name
      Listing.emit (.module offer)
      if !offer.content.isPackage then return seen
      if ← tryPackage records name then
        let dirs ← packageDirs name
        let fresh := dirs.filter fun d => !d.among seen
        walkPackages records fuel (some fresh) (name ++ ".")
        return seen ++ fresh
      else return seen) []
    match fault with
    | some fault => throw fault
    | none => pure ()

/-- A walk from a path. Packages lie in one another no deeper than entries and links on one path allow. -/
def walkAll (records : Bool) (path : Option (List Value)) (start : String) : Listing Walked Unit := do
  let fs ← (files : Run FileSystem)
  walkPackages records ((fs.root.size + 1) * (FileSystem.linkLimit + 1)) path start

/-! ## Paths of packages -/

/-- What one directory of the search path adds to the path of a package: its part of the package, and the
lines of the file that lists further parts. -/
def pathParts (fs : FileSystem) (name : String) (path : List Value) (dir : String) :
    Except Fault (List Value) := do
  let pieces := Text.pieces name '.'
  let relative := (pieces.drop 1).foldl Path.join (pieces.headD "")
  let package := Path.join dir relative
  let own : List Value :=
    if !(Value.str package).among path && fs.isFile (Path.join package "__init__.py") then [.str package] else []
  let list := Path.join dir (name ++ ".pkg")
  if fs.isFile list then
    let lines := (Text.feedLines (← fs.read list).text).map fun line =>
      if Text.endsIn line "\n" then Text.dropLast line 1 else line
    return own ++ (lines.filter fun line => line ≠ "" && !Text.beginsWith line "#").map .str
  else return own

/-- The path of a package extended by what the search path holds for it. What is no list stays as it is. -/
def extendedPath (path name : Value) : Run Value := do
  match path with
  | .list items =>
    let name ← name.text
    let s ← get
    let items ← s.searchPath.foldlM (fun items entry => do
      match entry with
      | .str dir =>
        if s.files.isDir dir then return items ++ (← pathParts s.files name items dir) else return items
      | _ => return items) items
    return .list items
  | path => return path

end Run

end ImportAtlas

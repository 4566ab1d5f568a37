import ImportAtlas.Analysis.Source
import ImportAtlas.Imports.Collect
import ImportAtlas.Roots

/-!
# The imports of a file by full name

An import that is found beside the importing file is named from the package root; all others are named as
they are written.
-/

namespace ImportAtlas

structure Listed where
  name : String
  line : Value
  /-- The module was found beside the importing file. -/
  isLocal : Bool

namespace Run

def nameFromRoot (root dir name : String) : String :=
  Text.swap (Text.dropFirst dir (root.length + 1)) '/' '.' ++ "." ++ name

/-- One import by its full name. The root of the file is searched for when the first local import asks for
it, and is then known. A local import outside all roots is reported and has no full name. -/
def listImport (path : String) (ignores : Ignores) (root : Option String) (r : ImportRecord) :
    Run (Option String × Option Listed) := do
  let module ← r.module.text
  let dir := Path.parent path
  let whole (name : String) := if r.symbol.isNone then name else name ++ "." ++ r.symbol.display
  match ← (← finder).dotted ((Text.pieces module '.').map .str) (some dir) with
  | none =>
    return (root, some { name := whole module, line := r.line, isLocal := false })
  | some _ =>
    let root ← match root with
      | some root => pure (some root)
      | none => do
        let fs ← files
        fs.packageRoot ignores path
    match root with
    | none =>
      let line ← r.line.lineNumber
      message .warning (line ++ ": Could not find package root for local import '" ++ module ++ "' from '" ++
        path ++ "'.")
      return (none, none)
    | some root =>
      return (some root, some { name := whole (nameFromRoot root dir module), line := r.line, isLocal := true })

/-- The imports of a file by their full names, each of which is used as soon as it is known. -/
def listImports {m : Type → Type} [Monad m] [MonadLiftT Run m] (path : String) (ignores : Ignores)
    (use : Listed → m Unit) : m Unit := do
  match (← (readSource path : Run ParsedFile)).tree with
  | none => pure ()
  | some t =>
    let records ← (t.imports : Run (List ImportRecord))
    let _ ← records.foldlM (fun root r => do
      let (root, i) ← (listImport path ignores root r : Run (Option String × Option Listed))
      i.toList.forM use
      return root) none

/-- The same imports, handed out one by one. -/
def emittedImports (path : String) (ignores : Ignores) : Listing Listed Unit :=
  listImports path ignores Listing.emit

def listedImports (path : String) (ignores : Ignores) : Run (List Listed) := do
  let (listed, fault) ← (emittedImports path ignores).all
  match fault with
  | none => return listed
  | some fault => throw fault

end Run

end ImportAtlas

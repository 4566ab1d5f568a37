import ImportAtlas.Modules.Lookup

/-!
# Importers

An importer finds modules in one place: a directory, the whole search path, or an archive of files. A path
belongs to an archive if it, or a path above it, is one.
-/

namespace ImportAtlas

/-- A place in an archive: the archive's path, and the part below it, which ends in a slash if it is not
empty. -/
structure ArchiveSite where
  archive : String
  inside : String
  deriving DecidableEq, Repr

inductive Importer where
  /-- A directory, or the search path if there is none. -/
  | directory (path : Option String)
  | archive (site : ArchiveSite)
  deriving DecidableEq, Repr

namespace FileSystem

/-- The archive in which a path lies; `below` holds the parts that have been cut off, the first one first.
A path gets shorter with each part. -/
def archiveAbove (fs : FileSystem) (below : List String) : Nat → String → Option ArchiveSite
  | 0, _ => none
  | fuel + 1, path =>
    if fs.exists? path then
      if (fs.archive? path).isSome then
        let inside := "/".intercalate below
        some { archive := path, inside := if inside = "" || Text.endsIn inside "/" then inside else inside ++ "/" }
      else none
    else
      let above := Path.parent path
      if above = path then none else fs.archiveAbove (Path.base path :: below) fuel above

def archiveSite? (fs : FileSystem) (path : String) : Option ArchiveSite :=
  if path = "" then none else fs.archiveAbove [] (path.length + 1) path

end FileSystem

end ImportAtlas

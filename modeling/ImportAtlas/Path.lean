import ImportAtlas.Text.Basic

/-!
# Paths as text

Paths are texts whose parts stand between slashes. These operations look at the text alone and ask no
file system.
-/

namespace ImportAtlas.Path

/-- `name` below `base`. An absolute name stands for itself. -/
def join (base name : String) : String :=
  if Text.beginsWith name "/" then name
  else if base = "" || Text.endsIn base "/" then base ++ name
  else base ++ "/" ++ name

def lastChars (path : List Char) : List Char :=
  (path.reverse.takeWhile (· ≠ '/')).reverse

def upToSlash (path : List Char) : List Char :=
  (path.reverse.dropWhile (· ≠ '/')).reverse

/-- No slashes at the end, unless there is nothing else. -/
def withoutSlashes (path : List Char) : List Char :=
  let stripped := (path.reverse.dropWhile (· = '/')).reverse
  if stripped.isEmpty then path else stripped

def base (path : String) : String :=
  String.ofList (lastChars path.toList)

def parent (path : String) : String :=
  String.ofList (withoutSlashes (upToSlash path.toList))

def isAbsolute (path : String) : Bool :=
  Text.beginsWith path "/"

def segments (path : String) : List String :=
  Text.pieces path '/'

def ofParts (parts : List String) : String :=
  "/" ++ "/".intercalate parts

theorem length_withoutSlashes_le (path : List Char) : (withoutSlashes path).length ≤ path.length := by
  simp only [withoutSlashes]
  split
  · exact Nat.le_refl _
  · simpa using (List.dropWhile_suffix (l := path.reverse) (· = '/')).length_le

end ImportAtlas.Path

import ImportAtlas.Analysis.Source
import ImportAtlas.Roots

/-!
# The roots of given paths
-/

namespace ImportAtlas.Run

/-- The package roots of the given paths, in order and each once. A directory without any is reported. -/
def rootsOf (ignores : Ignores) (paths : List String) : Run (List String) := do
  let fs ← files
  let roots ← paths.mapM fun path => do
    let path := fs.realPath path
    let roots ← fs.rootsFor ignores path
    if roots.isEmpty then
      message .warning ("Directory '" ++ path ++ "' does live or include any roots.")
    return roots
  return Text.sort (Text.distinct roots.flatten)

end ImportAtlas.Run

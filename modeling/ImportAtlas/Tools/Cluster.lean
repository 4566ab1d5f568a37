import ImportAtlas.Analysis.Lines
import ImportAtlas.Analysis.Source
import ImportAtlas.Depends.Cluster
import ImportAtlas.Tools.Manual

/-!
# The program that clusters dependencies

Names from the standard input are replaced by the clusters in which they lie.
-/

namespace ImportAtlas

namespace Run

def clustersFrom (path : String) : Run (List String) := do
  return Depends.clusterNames (← (← files).read path).text

end Run

namespace Tools

structure ClusterSettings where
  fromFile : String := ""

def clusterFlags : List (Flag ClusterSettings) :=
  [{ names := ["-f", "--from-file"], effect := .text fun path s => { s with fromFile := path } }]

def clusterManual : Manual where
  program := "sfood-cluster"
  text := "Read snakefood dependencies from stdin and cluster according to filenames.\n\n" ++
    "You need to call this script with the names of directories to cluster together,\nfor relative filenames."

def cluster (arguments : List String) : Run Unit := do
  let (settings, clusters) ← Run.ownOptions clusterManual clusterFlags {} arguments
  let more ← if settings.fromFile = "" then pure [] else Run.clustersFrom settings.fromFile
  let clusters := (clusters ++ more).map Value.str
  let step (table : Depends.Table) (dependency : Value) : Run Depends.Table := do
    let (source, target) ← dependency.ends
    let source ← Depends.cluster clusters source.1 source.2
    let target ← Depends.cluster clusters target.1 target.2
    Depends.addClustered table source target
  let table ← Run.foldValues step [] (← Run.takeInput)
  Run.print (← Depends.written table)

end Tools

end ImportAtlas

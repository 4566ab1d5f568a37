import ImportAtlas.Analysis.Dependencies
import ImportAtlas.Analysis.Lines
import ImportAtlas.Analysis.Listing
import ImportAtlas.Analysis.Roots
import ImportAtlas.Analysis.Source
import ImportAtlas.Console
import ImportAtlas.Decimal.Scaled
import ImportAtlas.Decimal.Shortest
import ImportAtlas.DefaultMap
import ImportAtlas.Depends.Basic
import ImportAtlas.Depends.Cluster
import ImportAtlas.Depends.Drawing
import ImportAtlas.Dispatch
import ImportAtlas.Fault
import ImportAtlas.Files.Basic
import ImportAtlas.Files.Resolve
import ImportAtlas.Files.Update
import ImportAtlas.Files.Walk
import ImportAtlas.Imports.Collect
import ImportAtlas.Imports.Duplicates
import ImportAtlas.Imports.Record
import ImportAtlas.Imports.Unused
import ImportAtlas.Main
import ImportAtlas.Modules.Code
import ImportAtlas.Modules.Contents
import ImportAtlas.Modules.Declared
import ImportAtlas.Modules.Dotted
import ImportAtlas.Modules.Importer
import ImportAtlas.Modules.Loading
import ImportAtlas.Modules.Lookup
import ImportAtlas.Modules.Packages
import ImportAtlas.Options
import ImportAtlas.Path
import ImportAtlas.Pattern.Basic
import ImportAtlas.Pattern.Matcher
import ImportAtlas.Pattern.Reader
import ImportAtlas.Pattern.Set
import ImportAtlas.Pattern.Sign
import ImportAtlas.Printout
import ImportAtlas.Roots
import ImportAtlas.Session
import ImportAtlas.Sources
import ImportAtlas.Text.Basic
import ImportAtlas.Text.Blank
import ImportAtlas.Text.Case
import ImportAtlas.Text.CharTable
import ImportAtlas.Text.Digit
import ImportAtlas.Text.Encoding
import ImportAtlas.Text.Hidden
import ImportAtlas.Text.Lines
import ImportAtlas.Text.Name
import ImportAtlas.Text.Quoted
import ImportAtlas.Text.Whole
import ImportAtlas.Text.Word
import ImportAtlas.Tools.Check
import ImportAtlas.Tools.Cluster
import ImportAtlas.Tools.Copy
import ImportAtlas.Tools.Deps
import ImportAtlas.Tools.Draw
import ImportAtlas.Tools.Filter
import ImportAtlas.Tools.Flatten
import ImportAtlas.Tools.ListImports
import ImportAtlas.Tools.Manual
import ImportAtlas.Tools.PrintTree
import ImportAtlas.Tools.Program
import ImportAtlas.Tools.Rename
import ImportAtlas.Tree.Assigned
import ImportAtlas.Tree.Basic
import ImportAtlas.Tree.Exported
import ImportAtlas.Tree.Kind
import ImportAtlas.Tree.Names
import ImportAtlas.Tree.Printer
import ImportAtlas.Tree.Visitor
import ImportAtlas.Value.Basic
import ImportAtlas.Value.Order
import ImportAtlas.Value.Printer
import ImportAtlas.Value.Reader
import ImportAtlas.Value.Token
import ImportAtlas.Proofs.Quoting
import ImportAtlas.Proofs.Literals
import ImportAtlas.Proofs.DependencyLines
import ImportAtlas.Proofs.Runs
import ImportAtlas.Proofs.ModuleCache
import ImportAtlas.Proofs.DottedNames
import ImportAtlas.Proofs.Equality
import ImportAtlas.Proofs.Sessions
import ImportAtlas.Proofs.ImportFiles
import ImportAtlas.Proofs.FoundFiles
import ImportAtlas.Proofs.DependencyTable
import ImportAtlas.Proofs.Searching
import ImportAtlas.Proofs.Following
import ImportAtlas.Proofs.Faults
import ImportAtlas.Proofs.AnalysisFaults
import ImportAtlas.Proofs.Climbs
import ImportAtlas.Proofs.DependencyRuns
import ImportAtlas.Proofs.Listings
import ImportAtlas.Proofs.FollowedRuns
import ImportAtlas.Proofs.ArgumentOrder
import ImportAtlas.Proofs.Restrictions
import ImportAtlas.Proofs.Histories
import ImportAtlas.Proofs.Outlines
import ImportAtlas.Proofs.WellFormed
import ImportAtlas.Proofs.ImportStatements
import ImportAtlas.Proofs.Remarks
import ImportAtlas.Proofs.NameChains
import ImportAtlas.Proofs.WrittenNames
import ImportAtlas.Proofs.ExportLists
import ImportAtlas.Proofs.UnusedImports
import ImportAtlas.Proofs.IgnoringUnused
import ImportAtlas.Proofs.ValueOrder
import ImportAtlas.Proofs.ArrangedTables
import ImportAtlas.Proofs.Clusters
import ImportAtlas.Proofs.Paths
import ImportAtlas.Proofs.Places
import ImportAtlas.Proofs.Walks
import ImportAtlas.Proofs.PackageRoots
import ImportAtlas.Proofs.RelativeImports
import ImportAtlas.Proofs.NamedFiles
import ImportAtlas.Proofs.GivenFiles
import ImportAtlas.Proofs.ClusteredSets
import ImportAtlas.Proofs.LiteralPatterns
import ImportAtlas.Proofs.LiteralRenames
import ImportAtlas.Proofs.ListedImports
import ImportAtlas.Proofs.ImportOrigins
import ImportAtlas.Proofs.Growth
import ImportAtlas.Proofs.MadeDirectories
import ImportAtlas.Proofs.WrittenFiles
import ImportAtlas.Proofs.NamesFromRoots
import ImportAtlas.Proofs.CopiedFiles
import ImportAtlas.Proofs.CopyRuns
import ImportAtlas.Proofs.ListedModules
import ImportAtlas.Proofs.RepeatedImports
import ImportAtlas.Proofs.MissingImports
import ImportAtlas.Proofs.AssignedNames
import ImportAtlas.Proofs.TopDownWalks
import ImportAtlas.Proofs.TopmostRoots
import ImportAtlas.Proofs.SourcesBelow
import ImportAtlas.Proofs.SplitPaths
import ImportAtlas.Proofs.DirectoryClusters
import ImportAtlas.Proofs.Output
import ImportAtlas.Proofs.FilteredLibrary
import ImportAtlas.Proofs.PrintedStatements
import ImportAtlas.Proofs.DrawnNames
import ImportAtlas.Proofs.FirstOccurrences
import ImportAtlas.Proofs.SimpleNames
import ImportAtlas.Proofs.TotalLookups
import ImportAtlas.Proofs.PrintedTrees

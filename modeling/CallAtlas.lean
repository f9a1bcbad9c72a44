import CallAtlas.Analysis
import CallAtlas.AnalysisError
import CallAtlas.CallForest
import CallAtlas.CallGraph
import CallAtlas.CallTree
import CallAtlas.CommandLine.Arguments
import CallAtlas.CommandLine.Program
import CallAtlas.Definition
import CallAtlas.Diagram.Component
import CallAtlas.Diagram.Flowchart
import CallAtlas.Diagram.Grammar
import CallAtlas.Diagram.Label
import CallAtlas.Diagram.Render
import CallAtlas.Diagram.Revision
import CallAtlas.Diagram.Role
import CallAtlas.Diagram.Tidy
import CallAtlas.Extraction
import CallAtlas.FilePath
import CallAtlas.FileTree
import CallAtlas.FileTree.Access
import CallAtlas.FileTree.IgnoreRules
import CallAtlas.FileTree.Walk
import CallAtlas.Glob.Matching
import CallAtlas.Glob.Token
import CallAtlas.JsonValue
import CallAtlas.Language
import CallAtlas.Lexical.Extraction
import CallAtlas.Lexical.Patterns
import CallAtlas.Main
import CallAtlas.NameSet
import CallAtlas.Proofs.FirstVisit
import CallAtlas.Proofs.ForestGrowth
import CallAtlas.Proofs.ForestNames
import CallAtlas.Proofs.Resolution
import CallAtlas.Proofs.TreeReadings
import CallAtlas.Scanner
import CallAtlas.Settings
import CallAtlas.Source.Harvest
import CallAtlas.Source.Indented
import CallAtlas.Source.Items
import CallAtlas.Source.Node
import CallAtlas.Source.Script
import CallAtlas.Text.CaseTable
import CallAtlas.Text.CharClass
import CallAtlas.Text.CharSpan
import CallAtlas.Text.Fragment
import CallAtlas.Text.LetterCase
import CallAtlas.Text.LetterTable
import CallAtlas.Text.Parser
import CallAtlas.Text.Pattern
import CallAtlas.Text.Trim
import CallAtlas.Toml.Reader
import CallAtlas.Toml.Table
import CallAtlas.Proofs.ForestReach
import CallAtlas.Proofs.PatternCuts
import CallAtlas.Proofs.TextLines
import CallAtlas.Proofs.TextRewriting
import CallAtlas.Proofs.TidyLines
import CallAtlas.Proofs.DiagramOpening
import CallAtlas.Proofs.CallPaths
import CallAtlas.Proofs.FirstOccurrence
import CallAtlas.Proofs.RecursiveGroups
import CallAtlas.Proofs.CallOrigins
import CallAtlas.Proofs.EntryTrees
import CallAtlas.Proofs.FencedReplies
import CallAtlas.Proofs.RevisedAnalysis
import CallAtlas.Proofs.GraphFigures
import CallAtlas.Proofs.FileOrder
import CallAtlas.Proofs.TreeEdges
import CallAtlas.Proofs.FlowchartShape
import CallAtlas.Proofs.PackageBlocks
import CallAtlas.Proofs.DiagramEdges
import CallAtlas.Proofs.UnresolvedCalls
import CallAtlas.Proofs.NodeAddresses
import CallAtlas.Proofs.TreeHarvest
import CallAtlas.Proofs.DefiningNodes
import CallAtlas.Proofs.InnermostCalls
import CallAtlas.Proofs.FollowedPaths
import CallAtlas.Proofs.ScannedFiles
import CallAtlas.Proofs.CallScans
import CallAtlas.Proofs.LaterDefinitions
import CallAtlas.Proofs.MatchScans
import CallAtlas.Proofs.PatternSymbols
import CallAtlas.Proofs.NestedCalls
import CallAtlas.Proofs.ExtractedListings
import CallAtlas.Proofs.DecidedHeads
import CallAtlas.Proofs.LineEndings
import CallAtlas.Proofs.WrittenFiles
import CallAtlas.Proofs.CommandOutcomes
import CallAtlas.Proofs.OutputOption
import CallAtlas.Proofs.WholeNames
import CallAtlas.Proofs.BalancedHeads
import CallAtlas.Proofs.FragmentReplacement
import CallAtlas.Proofs.ArrowScans
import CallAtlas.Proofs.SpacedArrows
import CallAtlas.Proofs.TidyNormalForm
import CallAtlas.Proofs.TidyChanges
import CallAtlas.Proofs.CharClasses
import CallAtlas.Proofs.LineLocality
import CallAtlas.Proofs.UtilityNames
import CallAtlas.Proofs.TaggedLines
import CallAtlas.Proofs.TidiedRoles
import CallAtlas.Proofs.WrappedReplies
import CallAtlas.Proofs.ClosingFences
import CallAtlas.Proofs.SharedIdentifiers
import CallAtlas.Proofs.DrawnCalls
import CallAtlas.Proofs.HiddenNames
import CallAtlas.Proofs.BoundedGrowth
import CallAtlas.Proofs.AddedDefinitions
import CallAtlas.Proofs.EntryCaps
import CallAtlas.Proofs.NamePlaces
import CallAtlas.Proofs.PrintedNames
import CallAtlas.Proofs.NumberedParts
import CallAtlas.Proofs.TreeAddresses
import CallAtlas.Proofs.PathParts
import CallAtlas.Proofs.RolesInContext
import CallAtlas.Proofs.ProjectFolders
import CallAtlas.Proofs.PatternLanguages
import CallAtlas.Proofs.TextBytes
import CallAtlas.Proofs.GlobReadings
import CallAtlas.Proofs.VendoredFiles

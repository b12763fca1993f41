import GoSchema.Block.Basic
import GoSchema.Block.Sdl
import GoSchema.Block.SdlReader
import GoSchema.Catalog.Basic
import GoSchema.Catalog.BlockMaker
import GoSchema.Catalog.EnumMembers
import GoSchema.Catalog.Flatten
import GoSchema.Catalog.Indexed
import GoSchema.Catalog.Instance
import GoSchema.Catalog.Reach
import GoSchema.Catalog.Request
import GoSchema.Catalog.Shape
import GoSchema.Command.Basic
import GoSchema.Command.Options
import GoSchema.Config.Basic
import GoSchema.Config.Datum
import GoSchema.Config.Decode
import GoSchema.Config.Json
import GoSchema.Config.Keyword
import GoSchema.Config.Load
import GoSchema.Config.Starter
import GoSchema.Config.Toml
import GoSchema.Config.TomlTable
import GoSchema.Config.Validity
import GoSchema.Declaration.Basic
import GoSchema.Declaration.Field
import GoSchema.Declaration.OfSource
import GoSchema.Directive.Basic
import GoSchema.Directive.Cursor
import GoSchema.Directive.Doc
import GoSchema.Directive.Fault
import GoSchema.Directive.Parser
import GoSchema.Directive.Printer
import GoSchema.Directive.Reader
import GoSchema.Directive.Value
import GoSchema.Fault
import GoSchema.FieldTag.Basic
import GoSchema.FieldTag.Entries
import GoSchema.FieldTag.Fault
import GoSchema.FieldTag.Parser
import GoSchema.FieldTag.Printer
import GoSchema.Files.RootSpec
import GoSchema.Files.Scan
import GoSchema.Files.Tree
import GoSchema.Generation
import GoSchema.GoType
import GoSchema.Main
import GoSchema.Module.Directive
import GoSchema.Module.Lookup
import GoSchema.Name.Schema
import GoSchema.Name.Words
import GoSchema.Output.Layout
import GoSchema.Output.Plan
import GoSchema.Output.Region
import GoSchema.Output.Summary
import GoSchema.Path
import GoSchema.Pattern
import GoSchema.Proofs.AliasedConstants
import GoSchema.Proofs.AlikeCatalogs
import GoSchema.Proofs.BlankNames
import GoSchema.Proofs.Blocks
import GoSchema.Proofs.BlocksOnDisk
import GoSchema.Proofs.BlocksWithoutInputs
import GoSchema.Proofs.CarriedPlans
import GoSchema.Proofs.CursorLoops
import GoSchema.Proofs.CursorValues
import GoSchema.Proofs.DeclarationOrder
import GoSchema.Proofs.DirectedBlocks
import GoSchema.Proofs.DirectiveSpans
import GoSchema.Proofs.DiscoveredReferences
import GoSchema.Proofs.DiscoveredRequests
import GoSchema.Proofs.DiscoveryDistance
import GoSchema.Proofs.DiscoveryWithoutInputs
import GoSchema.Proofs.EmbeddedTags
import GoSchema.Proofs.EmbeddingCycles
import GoSchema.Proofs.EnumLinks
import GoSchema.Proofs.ExtendedCatalogs
import GoSchema.Proofs.FailedRuns
import GoSchema.Proofs.FencedTexts
import GoSchema.Proofs.FileGroups
import GoSchema.Proofs.FlatFields
import GoSchema.Proofs.FlatStructs
import GoSchema.Proofs.FoundFiles
import GoSchema.Proofs.GenericNames
import GoSchema.Proofs.HiddenFields
import GoSchema.Proofs.IdFields
import GoSchema.Proofs.IndexedCatalogs
import GoSchema.Proofs.InstanceFields
import GoSchema.Proofs.InstanceLevels
import GoSchema.Proofs.InstanceNames
import GoSchema.Proofs.InstanceQueue
import GoSchema.Proofs.InstanceTable
import GoSchema.Proofs.InstantiatedFields
import GoSchema.Proofs.KeptRegion
import GoSchema.Proofs.LeftOutBlocks
import GoSchema.Proofs.Lookup
import GoSchema.Proofs.MadeWays
import GoSchema.Proofs.MarkedRows
import GoSchema.Proofs.NameWords
import GoSchema.Proofs.NamedCatalogs
import GoSchema.Proofs.NamedDirectories
import GoSchema.Proofs.NamedPlaces
import GoSchema.Proofs.Outcome
import GoSchema.Proofs.OutputPaths
import GoSchema.Proofs.PackageReferences
import GoSchema.Proofs.ParameterContexts
import GoSchema.Proofs.PathSteps
import GoSchema.Proofs.PlacedDirectives
import GoSchema.Proofs.Places
import GoSchema.Proofs.Pointwise
import GoSchema.Proofs.PrintedDirectives
import GoSchema.Proofs.PrintedTags
import GoSchema.Proofs.ReadNames
import GoSchema.Proofs.ReadPatterns
import GoSchema.Proofs.References
import GoSchema.Proofs.Regeneration
import GoSchema.Proofs.RememberedModules
import GoSchema.Proofs.RewrittenFields
import GoSchema.Proofs.Rows
import GoSchema.Proofs.RunFrame
import GoSchema.Proofs.SettledShapes
import GoSchema.Proofs.ShadowedFields
import GoSchema.Proofs.SimilarBlocks
import GoSchema.Proofs.SimilarCatalogs
import GoSchema.Proofs.SimilarDiscovery
import GoSchema.Proofs.SimilarInstances
import GoSchema.Proofs.SimilarShapes
import GoSchema.Proofs.SolidNames
import GoSchema.Proofs.SortedGroups
import GoSchema.Proofs.SourceDeclarations
import GoSchema.Proofs.StructNames
import GoSchema.Proofs.TokenSuffixes
import GoSchema.Proofs.TrailingSlashes
import GoSchema.Proofs.TypeArguments
import GoSchema.Proofs.TypeTexts
import GoSchema.Proofs.UndirectedStructs
import GoSchema.Proofs.ValueNames
import GoSchema.Proofs.VerbatimTypes
import GoSchema.Proofs.Ways
import GoSchema.Proofs.WellFormed
import GoSchema.Proofs.WithoutInputs
import GoSchema.Proofs.WrittenFiles
import GoSchema.Proofs.WrittenScopes
import GoSchema.Proofs.WrittenValues
import GoSchema.Scope
import GoSchema.Source.Comment
import GoSchema.Source.File
import GoSchema.Source.Grammar
import GoSchema.Source.Lexer
import GoSchema.Source.Parse
import GoSchema.Source.Reader
import GoSchema.Source.Token
import GoSchema.Text
import GoSchema.Unicode.Alphanumeric
import GoSchema.Unicode.Blank
import GoSchema.Unicode.CaseMap
import GoSchema.Unicode.Letter
import GoSchema.Unicode.LetterCase
import GoSchema.Unicode.Run

import RestForge.Text.Letters
import RestForge.Text.Unprintable
import RestForge.Decimal.Binary64
import RestForge.Decimal.Shortest
import RestForge.Text.CamelCase
import RestForge.Text.Quoted
import RestForge.Text.Split
import RestForge.Json.Printer
import RestForge.Json.Reader
import RestForge.Naming.Identifier
import RestForge.Naming.NameTable
import RestForge.FileTree.Fault
import RestForge.Schema.Basic
import RestForge.Schema.Error
import RestForge.Schema.Reader
import RestForge.Naming.TypeNames
import RestForge.Source.Doc
import RestForge.Source.Token
import RestForge.Source.Tree
import RestForge.Source.Layout
import RestForge.Emit.Basic
import RestForge.Emit.Client
import RestForge.Emit.Model
import RestForge.Emit.Validators
import RestForge.Emit.Artifact
import RestForge.FileTree.Access
import RestForge.Crate.Manifest
import RestForge.Crate.ModuleTree
import RestForge.FileTree.Replacement
import RestForge.Run.Config
import RestForge.Run.Failure
import RestForge.Run.Generate
import RestForge.CommandLine.Options
import RestForge.CommandLine.Program
import RestForge.Rest.DecodeError
import RestForge.Rest.KeySegment
import RestForge.Rest.Model
import RestForge.Rest.Query
import RestForge.Rest.Endpoint
import RestForge.Rest.MockTransport
import RestForge.Rest.Payload
import RestForge.Main
import RestForge.Proofs.NameTable
import RestForge.Proofs.Pieces
import RestForge.Proofs.SoundTable
import RestForge.Proofs.Spelling
import RestForge.Proofs.Reading
import RestForge.Proofs.SchemaFormat
import RestForge.Proofs.TableReadings
import RestForge.Proofs.Acceptance
import RestForge.Proofs.TableKeys
import RestForge.Proofs.ResourceShape
import RestForge.Proofs.NamePrograms
import RestForge.Proofs.TypeWords
import RestForge.Proofs.TypeNames
import RestForge.Proofs.OtherFiles
import RestForge.Proofs.RemovedFile
import RestForge.Proofs.Isolation
import RestForge.Proofs.PathText
import RestForge.Proofs.ModuleTree
import RestForge.Proofs.OutputPaths
import RestForge.Proofs.NestedPaths
import RestForge.Proofs.CheckMeaning
import RestForge.Proofs.RowFaults
import RestForge.Proofs.Validation
import RestForge.Proofs.Interleaving
import RestForge.Proofs.LayoutOrder
import RestForge.Proofs.FileOrder
import RestForge.Proofs.Directories
import RestForge.Proofs.ClosedTree
import RestForge.Proofs.TokenPaths
import RestForge.Proofs.TreePaths
import RestForge.Proofs.NestedItems
import RestForge.Proofs.ResourceNames
import RestForge.Proofs.FunctionPaths
import RestForge.Proofs.DistinctNames
import RestForge.Proofs.References
import RestForge.Proofs.ClientOperations
import RestForge.Proofs.LibraryMeaning
import RestForge.Proofs.FunctionMeaning
import RestForge.Proofs.ProgramMeaning
import RestForge.Proofs.ItemLookup
import RestForge.Proofs.ModelRecords
import RestForge.Proofs.SamplePayload
import RestForge.Proofs.ValidatorTests
import RestForge.Proofs.ModelTypes
import RestForge.Proofs.PayloadModel
import RestForge.Proofs.FunctionRuns
import RestForge.Proofs.ClientRuns
import RestForge.Proofs.ClientRequests
import RestForge.Proofs.ClientTests
import RestForge.Proofs.CreateCycle
import RestForge.Proofs.Places
import RestForge.Proofs.WrittenFiles
import RestForge.Proofs.ErroredFiles
import RestForge.Proofs.RunAccounts
import RestForge.Proofs.Walks
import RestForge.Proofs.Along
import RestForge.Proofs.MadeDirectories
import RestForge.Proofs.OutputRoots
import RestForge.Proofs.Replacing
import RestForge.Proofs.SettledFiles
import RestForge.Proofs.KeptSchemas
import RestForge.Proofs.SettledRuns
import RestForge.Proofs.ClearOutput
import RestForge.Proofs.DryRun
import RestForge.Proofs.ClearedSources
import RestForge.Proofs.ProducedFiles
import RestForge.Proofs.Regeneration
import RestForge.Proofs.CleanRun
import RestForge.Proofs.NameRoundTrip
import RestForge.Proofs.DottedPaths
import RestForge.Proofs.RecordViews
import RestForge.Proofs.Clashes
import RestForge.Proofs.NameBatches
import RestForge.Proofs.TypeRegistrations
import RestForge.Proofs.OrderedLayout
import RestForge.Proofs.QuotedText
import RestForge.Proofs.TokenStructs
import RestForge.Proofs.ModelMirror
import RestForge.Proofs.KeyPaths
import RestForge.Proofs.Decodings
import RestForge.Proofs.TouchedFiles
import RestForge.Proofs.DispatchTraces
import RestForge.Proofs.QuerySettings
import RestForge.Proofs.ManifestPath
import RestForge.Proofs.ByteOrder
import RestForge.Proofs.Discovery
import RestForge.Proofs.UndeclaredValues
import RestForge.Proofs.Documentation

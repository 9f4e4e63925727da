import PluginAgent.Agent.Loading
import PluginAgent.Agent.Session
import PluginAgent.Archive.Contents
import PluginAgent.Archive.Descriptor
import PluginAgent.Archive.EntryName
import PluginAgent.Archive.Manifest
import PluginAgent.ClassName
import PluginAgent.Codec.Bytes
import PluginAgent.Codec.Gzip
import PluginAgent.Codec.Huffman
import PluginAgent.Codec.Inflate
import PluginAgent.Codec.TarHeader
import PluginAgent.Codec.TarReader
import PluginAgent.Codec.TarWriter
import PluginAgent.CommandLine
import PluginAgent.Config.Decode
import PluginAgent.Config.Load
import PluginAgent.Config.Settings
import PluginAgent.Disk
import PluginAgent.Logging.Choice
import PluginAgent.Logging.Data
import PluginAgent.Logging.Directive
import PluginAgent.Logging.Pattern
import PluginAgent.Logging.Settings
import PluginAgent.Logging.Setup
import PluginAgent.Main
import PluginAgent.Path
import PluginAgent.Plugin.Catalog
import PluginAgent.Plugin.Disabled
import PluginAgent.Plugin.Discovery
import PluginAgent.Plugin.Error
import PluginAgent.Plugin.Loader
import PluginAgent.Plugin.Namespaces
import PluginAgent.Plugin.Packages
import PluginAgent.Plugin.Scope
import PluginAgent.Plugin.Script
import PluginAgent.Plugin.Setup
import PluginAgent.Product
import PluginAgent.Properties
import PluginAgent.Report
import PluginAgent.Startup.Args
import PluginAgent.Startup.Boot
import PluginAgent.Startup.Error
import PluginAgent.Startup.Gate
import PluginAgent.Startup.Host
import PluginAgent.Startup.Identity
import PluginAgent.Startup.Layout
import PluginAgent.Startup.Option
import PluginAgent.Startup.Premain
import PluginAgent.Testing.ArchiveDraft
import PluginAgent.Testing.SampleHome
import PluginAgent.Testing.Scripted
import PluginAgent.Testing.Stage
import PluginAgent.Text.Blank
import PluginAgent.Text.CharacterClass
import PluginAgent.Text.Quoted
import PluginAgent.Text.Split
import PluginAgent.Text.Utf8
import PluginAgent.Toml.Document
import PluginAgent.Toml.Quote
import PluginAgent.Toml.Value
import PluginAgent.Toml.Word
import PluginAgent.Proofs.Growth
import PluginAgent.Proofs.Discovery
import PluginAgent.Proofs.SetupRuns
import PluginAgent.Proofs.LoadRuns
import PluginAgent.Proofs.ScopeSafety
import PluginAgent.Proofs.EntryNames
import PluginAgent.Proofs.TableHistory
import PluginAgent.Proofs.Confinement
import PluginAgent.Proofs.LoadParts
import PluginAgent.Proofs.Reading
import PluginAgent.Proofs.Isolation
import PluginAgent.Proofs.ByteViews
import PluginAgent.Proofs.StoredBlocks
import PluginAgent.Proofs.TarFields
import PluginAgent.Proofs.TarHeaders
import PluginAgent.Proofs.TarRoundTrip
import PluginAgent.Proofs.PackedEntries
import PluginAgent.Proofs.ResultOrder
import PluginAgent.Proofs.Accounts
import PluginAgent.Proofs.Balance
import PluginAgent.Proofs.AllOrNothing
import PluginAgent.Proofs.Disabling
import PluginAgent.Proofs.Moves
import PluginAgent.Proofs.StartCourse
import PluginAgent.Proofs.HomeListings
import PluginAgent.Proofs.StartEffects
import PluginAgent.Proofs.OneStart
import PluginAgent.Proofs.AgentRuns
import PluginAgent.Proofs.FaultContainment
import PluginAgent.Proofs.HookRuns
import PluginAgent.Proofs.Lifetimes
import PluginAgent.Proofs.ManifestSections
import PluginAgent.Proofs.DeclaredScopes
import PluginAgent.Proofs.WholeMembers
import PluginAgent.Proofs.IndexedReads
import PluginAgent.Proofs.MetadataReads
import PluginAgent.Proofs.ShortReads
import PluginAgent.Proofs.Admission
import PluginAgent.Proofs.ClassEntries
import PluginAgent.Proofs.Lines
import PluginAgent.Proofs.DraftTexts
import PluginAgent.Proofs.DraftReading
import PluginAgent.Proofs.LogSettings
import PluginAgent.Proofs.OneConfiguration
import PluginAgent.Proofs.PluginSources
import PluginAgent.Proofs.OverlappingCalls
import PluginAgent.Proofs.ContextCalls
import PluginAgent.Proofs.ClassResources
import PluginAgent.Proofs.OwnNamespaces
import PluginAgent.Proofs.LoadsInTurn
import PluginAgent.Proofs.PanickedStarts
import PluginAgent.Proofs.ManifestFoldings
import PluginAgent.Proofs.DescriptorLines
import PluginAgent.Proofs.IdentitySources
import PluginAgent.Proofs.ArgumentTexts
import PluginAgent.Proofs.NormalNames
import PluginAgent.Proofs.ByteOrder
import PluginAgent.Proofs.Enumeration
import PluginAgent.Proofs.VerifiedHomes
import PluginAgent.Proofs.NameGrammar
import PluginAgent.Proofs.PackageTexts

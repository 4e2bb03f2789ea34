import ConfigCompiler.Catalog.Basic
import ConfigCompiler.Catalog.Capability
import ConfigCompiler.Compile.Attachment
import ConfigCompiler.Compile.AutoAttach
import ConfigCompiler.Compile.Compiled
import ConfigCompiler.Compile.Draft
import ConfigCompiler.Compile.Expansion
import ConfigCompiler.Compile.Fingerprint
import ConfigCompiler.Compile.Permissions
import ConfigCompiler.Compile.Persisted
import ConfigCompiler.Data.SortedMap
import ConfigCompiler.Digest.Sha256
import ConfigCompiler.Entity.Kind
import ConfigCompiler.Entity.Name
import ConfigCompiler.Entity.Operation
import ConfigCompiler.Entry.Decode
import ConfigCompiler.Entry.EntrySet
import ConfigCompiler.Entry.Store
import ConfigCompiler.Failure
import ConfigCompiler.Json.Document
import ConfigCompiler.Json.NumberText
import ConfigCompiler.Json.Reader
import ConfigCompiler.Lookup.Hierarchy
import ConfigCompiler.Lookup.Registries
import ConfigCompiler.Lookup.Registry
import ConfigCompiler.Number.Binary64
import ConfigCompiler.Number.Decimal
import ConfigCompiler.Number.Word
import ConfigCompiler.Plugin.Description
import ConfigCompiler.Plugin.SchemaStep
import ConfigCompiler.Proofs.Agreement
import ConfigCompiler.Proofs.AliasOwnership
import ConfigCompiler.Proofs.AttachedBehaviors
import ConfigCompiler.Proofs.DeclaredBehaviors
import ConfigCompiler.Proofs.EntrySets
import ConfigCompiler.Proofs.FailureSources
import ConfigCompiler.Proofs.FirstPhase
import ConfigCompiler.Proofs.Growth
import ConfigCompiler.Proofs.Integrity
import ConfigCompiler.Proofs.KeptSchemas
import ConfigCompiler.Proofs.KindSchemas
import ConfigCompiler.Proofs.Naming
import ConfigCompiler.Proofs.Passes
import ConfigCompiler.Proofs.Questions
import ConfigCompiler.Proofs.RequiredPermissions
import ConfigCompiler.Proofs.SecondPhase
import ConfigCompiler.Proofs.StoredKinds
import ConfigCompiler.Record.Basic
import ConfigCompiler.Record.Field
import ConfigCompiler.Resolution.Basic
import ConfigCompiler.Schema.Baseline
import ConfigCompiler.Schema.Basic
import ConfigCompiler.Schema.Extension
import ConfigCompiler.Schema.Resolve
import ConfigCompiler.Schema.Rule
import ConfigCompiler.Startup
import ConfigCompiler.Storage.Disk
import ConfigCompiler.Storage.Path
import ConfigCompiler.Storage.Settings
import ConfigCompiler.Text.Blank
import ConfigCompiler.Text.Hexadecimal
import ConfigCompiler.Text.LetterCase
import ConfigCompiler.Text.Quoted
import ConfigCompiler.Time.Reader
import ConfigCompiler.Time.Timestamp
import ConfigCompiler.Toml.DateTime
import ConfigCompiler.Toml.Reader
import ConfigCompiler.Toml.Table
import ConfigCompiler.Value.Access
import ConfigCompiler.Value.Basic
import ConfigCompiler.Value.Overlay
import ConfigCompiler.Value.Text
import ConfigCompiler.Value.ValueType
import ConfigCompiler.Proofs.AgreeingPhases
import ConfigCompiler.Proofs.Transparency
import ConfigCompiler.Proofs.Layering
import ConfigCompiler.Proofs.CompiledEntries
import ConfigCompiler.Proofs.Construction
import ConfigCompiler.Proofs.WrittenNumbers
import ConfigCompiler.Proofs.WrittenValues
import ConfigCompiler.Proofs.ReadBack
import ConfigCompiler.Proofs.Persistence
import ConfigCompiler.Proofs.Files
import ConfigCompiler.Proofs.Fingerprints
import ConfigCompiler.Proofs.Caching
import ConfigCompiler.Proofs.FingerprintPayload
import ConfigCompiler.Proofs.WrittenTimes
import ConfigCompiler.Proofs.Emissions
import ConfigCompiler.Proofs.ExpandedActions
import ConfigCompiler.Proofs.ContributedOptions
import ConfigCompiler.Proofs.Discoveries
import ConfigCompiler.Proofs.Registrations
import ConfigCompiler.Proofs.SecondPhaseFrame
import ConfigCompiler.Proofs.AliasReports
import ConfigCompiler.Proofs.StillSteps
import ConfigCompiler.Proofs.DecidableValues
import ConfigCompiler.Proofs.Independence
import ConfigCompiler.Proofs.Lockstep
import ConfigCompiler.Proofs.LockstepPhases
import ConfigCompiler.Proofs.RebuiltSchemas
import ConfigCompiler.Proofs.SteadyLookups
import ConfigCompiler.Proofs.LookupHistory
import ConfigCompiler.Proofs.HandedOut
import ConfigCompiler.Proofs.PreloadedRecords
import ConfigCompiler.Proofs.KnownReferences
import ConfigCompiler.Proofs.NormalNames
import ConfigCompiler.Proofs.StableRules
import ConfigCompiler.Proofs.StableSchemas
import ConfigCompiler.Proofs.ParentChains
import ConfigCompiler.Proofs.ParentMaps
import ConfigCompiler.Proofs.CompiledResources
import ConfigCompiler.Proofs.Children
import ConfigCompiler.Proofs.PermissionReferences
import ConfigCompiler.Proofs.DiscoveredTypes
import ConfigCompiler.Proofs.ResolvedBags
import ConfigCompiler.Proofs.Additions
import ConfigCompiler.Proofs.CapabilitySearch
import ConfigCompiler.Proofs.LocalContributions
import ConfigCompiler.Proofs.ValuePaths
import ConfigCompiler.Proofs.MergeLaws
import ConfigCompiler.Proofs.AliasLookups
import ConfigCompiler.Proofs.RecordLayouts
import ConfigCompiler.Proofs.LosslessRecords
import ConfigCompiler.Proofs.StoredNames
import ConfigCompiler.Proofs.NamespacePrefixes
import ConfigCompiler.Proofs.AttachedLookups
import ConfigCompiler.Proofs.UnknownReferences

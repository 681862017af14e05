import Stubwright.Archive.Container
import Stubwright.Archive.Crc32
import Stubwright.Archive.Manifest
import Stubwright.Archive.Writer
import Stubwright.Build.Artifact
import Stubwright.Build.ClassPath
import Stubwright.Build.Compiler
import Stubwright.Build.Error
import Stubwright.Build.Package
import Stubwright.Build.Stage
import Stubwright.CommandLine.Error
import Stubwright.CommandLine.Options
import Stubwright.CommandLine.Run
import Stubwright.Graph.Search
import Stubwright.Graph.Walk
import Stubwright.Host.Basic
import Stubwright.Host.Copy
import Stubwright.Host.Directories
import Stubwright.Host.Disk
import Stubwright.Host.FileTree
import Stubwright.Host.IoError
import Stubwright.Host.Memory
import Stubwright.Host.Path
import Stubwright.Host.Shell.Run
import Stubwright.Host.Shell.Script
import Stubwright.Host.Trial
import Stubwright.Java.Descriptor
import Stubwright.Java.Identifier
import Stubwright.Java.JavaType
import Stubwright.Java.Member
import Stubwright.Java.Primitive
import Stubwright.Library.Basic
import Stubwright.Library.Catalog
import Stubwright.Library.Document
import Stubwright.Library.Error
import Stubwright.Library.File
import Stubwright.Library.Sample
import Stubwright.Library.Supertypes
import Stubwright.Library.Validation
import Stubwright.Main
import Stubwright.Markup.Escape
import Stubwright.Markup.Event
import Stubwright.Markup.Fault
import Stubwright.Markup.Scan
import Stubwright.Proofs.Agreement
import Stubwright.Proofs.ArchiveWrites
import Stubwright.Proofs.Arrangement
import Stubwright.Proofs.Artifacts
import Stubwright.Proofs.BinaryNames
import Stubwright.Proofs.Catalogs
import Stubwright.Proofs.ClassPaths
import Stubwright.Proofs.Components
import Stubwright.Proofs.Containers
import Stubwright.Proofs.Continuation
import Stubwright.Proofs.Copying
import Stubwright.Proofs.Coverage
import Stubwright.Proofs.Cycles
import Stubwright.Proofs.Declarations
import Stubwright.Proofs.DepthFirst
import Stubwright.Proofs.Elements
import Stubwright.Proofs.Encoding
import Stubwright.Proofs.Ends
import Stubwright.Proofs.Entries
import Stubwright.Proofs.Errors
import Stubwright.Proofs.FileReads
import Stubwright.Proofs.FileWrites
import Stubwright.Proofs.FirstMet
import Stubwright.Proofs.Flattening
import Stubwright.Proofs.Foreign
import Stubwright.Proofs.Format
import Stubwright.Proofs.Joins
import Stubwright.Proofs.Legality
import Stubwright.Proofs.Leniency
import Stubwright.Proofs.Lineage
import Stubwright.Proofs.Loading
import Stubwright.Proofs.Locations
import Stubwright.Proofs.ManifestReading
import Stubwright.Proofs.MemoryRuns
import Stubwright.Proofs.Modes
import Stubwright.Proofs.NameIdentity
import Stubwright.Proofs.Narrowing
import Stubwright.Proofs.Nesting
import Stubwright.Proofs.OnePass
import Stubwright.Proofs.Overloads
import Stubwright.Proofs.Override
import Stubwright.Proofs.OwnMembers
import Stubwright.Proofs.Packaging
import Stubwright.Proofs.Places
import Stubwright.Proofs.Precedence
import Stubwright.Proofs.Provided
import Stubwright.Proofs.Readability
import Stubwright.Proofs.Reading
import Stubwright.Proofs.Reports
import Stubwright.Proofs.Resolution
import Stubwright.Proofs.ReturnTypes
import Stubwright.Proofs.Roots
import Stubwright.Proofs.RoundTrip
import Stubwright.Proofs.Samples
import Stubwright.Proofs.Scratch
import Stubwright.Proofs.Search
import Stubwright.Proofs.Settings
import Stubwright.Proofs.SignatureReading
import Stubwright.Proofs.Skipping
import Stubwright.Proofs.Slots
import Stubwright.Proofs.SourceLines
import Stubwright.Proofs.SourcePaths
import Stubwright.Proofs.SourceReading
import Stubwright.Proofs.SourceWrites
import Stubwright.Proofs.Spelling
import Stubwright.Proofs.SupertypeChains
import Stubwright.Proofs.SupertypeNames
import Stubwright.Proofs.Supertypes
import Stubwright.Proofs.TagText
import Stubwright.Proofs.Trials
import Stubwright.Proofs.TypeNames
import Stubwright.Proofs.Validation
import Stubwright.Proofs.Walk
import Stubwright.Proofs.Words
import Stubwright.Proofs.WrittenTypes
import Stubwright.Stub.Body
import Stubwright.Stub.Error
import Stubwright.Stub.Generate
import Stubwright.Stub.Inheritance
import Stubwright.Stub.Location
import Stubwright.Stub.Signature
import Stubwright.Stub.Source
import Stubwright.Stub.Target
import Stubwright.Stub.Write
import Stubwright.Text.Blank
import Stubwright.Text.Cut
import Stubwright.Text.Letter
import Stubwright.Text.Quoted
import Stubwright.Text.Utf8

import ProtocolTypings.Json.Writer
import ProtocolTypings.Log.Loggers
import ProtocolTypings.Main
import ProtocolTypings.Proofs.Artifact.Again
import ProtocolTypings.Proofs.Artifact.Agreement
import ProtocolTypings.Proofs.Artifact.Alignment
import ProtocolTypings.Proofs.Artifact.Comparison
import ProtocolTypings.Proofs.Artifact.Composition
import ProtocolTypings.Proofs.Artifact.Delivery
import ProtocolTypings.Proofs.Artifact.Descriptions
import ProtocolTypings.Proofs.Artifact.Emission
import ProtocolTypings.Proofs.Artifact.Imports
import ProtocolTypings.Proofs.Artifact.Layout
import ProtocolTypings.Proofs.Artifact.Mapping
import ProtocolTypings.Proofs.Artifact.Metadata
import ProtocolTypings.Proofs.Artifact.Soundness
import ProtocolTypings.Proofs.Artifact.Weight
import ProtocolTypings.Proofs.CommandLine.Check
import ProtocolTypings.Proofs.CommandLine.Settings
import ProtocolTypings.Proofs.File.Again
import ProtocolTypings.Proofs.File.Growth
import ProtocolTypings.Proofs.File.Nodes
import ProtocolTypings.Proofs.File.ReadOnly
import ProtocolTypings.Proofs.File.Requests
import ProtocolTypings.Proofs.File.Run
import ProtocolTypings.Proofs.File.Success
import ProtocolTypings.Proofs.File.TwoWays
import ProtocolTypings.Proofs.File.Writing
import ProtocolTypings.Proofs.Json.Keys
import ProtocolTypings.Proofs.Log.Loggers
import ProtocolTypings.Proofs.Log.Outcome
import ProtocolTypings.Proofs.Schema.Grammar
import ProtocolTypings.Proofs.Schema.Location
import ProtocolTypings.Proofs.Schema.Members
import ProtocolTypings.Proofs.Schema.Pruning
import ProtocolTypings.Proofs.Schema.Records
import ProtocolTypings.Proofs.Schema.Strictness
import ProtocolTypings.Proofs.Schema.Traversal
import ProtocolTypings.Proofs.Schema.Unresolved
import ProtocolTypings.Proofs.Schema.Warnings
import ProtocolTypings.Proofs.Settings
import ProtocolTypings.Proofs.Text.Lines
import ProtocolTypings.Proofs.Text.Plain
import ProtocolTypings.Proofs.Typing.Alike
import ProtocolTypings.Proofs.Typing.Comment
import ProtocolTypings.Proofs.Typing.Inset
import ProtocolTypings.Proofs.Typing.Interface
import ProtocolTypings.Proofs.Typing.Marked
import ProtocolTypings.Proofs.Typing.ModuleNames
import ProtocolTypings.Proofs.Typing.Runs
import ProtocolTypings.Proofs.Typing.Sound
import ProtocolTypings.Proofs.Typing.Unambiguous
import ProtocolTypings.Typing.Step

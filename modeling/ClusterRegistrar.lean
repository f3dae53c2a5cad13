import ClusterRegistrar.Main
import ClusterRegistrar.Json.Reader
import ClusterRegistrar.Proofs.TakeAlong
import ClusterRegistrar.Proofs.WorkloadCluster
import ClusterRegistrar.Proofs.Credentials
import ClusterRegistrar.Proofs.Registration
import ClusterRegistrar.Proofs.Conversion
import ClusterRegistrar.Proofs.Pairing
import ClusterRegistrar.Proofs.Registration.Meaning
import ClusterRegistrar.Proofs.Conversion.Resilience
import ClusterRegistrar.Proofs.Conversion.Identity
import ClusterRegistrar.Proofs.Conversion.LabelFlow
import ClusterRegistrar.Proofs.Credentials.Decoding
import ClusterRegistrar.Proofs.Credentials.Validation
import ClusterRegistrar.Proofs.Conversion.Accounting
import ClusterRegistrar.Proofs.Conversion.Isolation
import ClusterRegistrar.Proofs.Conversion.FirstEntries
import ClusterRegistrar.Proofs.Registration.Safety
import ClusterRegistrar.Proofs.KubeConfig.Shape
import ClusterRegistrar.Proofs.Conversion.Annotations
import ClusterRegistrar.Proofs.Conversion.TlsGate
import ClusterRegistrar.Proofs.Value.Matching
import ClusterRegistrar.Proofs.Value.Folding
import ClusterRegistrar.Proofs.Manifest.Matching
import ClusterRegistrar.Proofs.Value.Equality
import ClusterRegistrar.Proofs.Manifest.Rearrangement
import ClusterRegistrar.Proofs.Manifest.Streaming
import ClusterRegistrar.Proofs.Conversion.Matching
import ClusterRegistrar.Proofs.Conversion.ClusterOrder
import ClusterRegistrar.Proofs.CommandLine.Directory
import ClusterRegistrar.Proofs.Listing.Matching
import ClusterRegistrar.Proofs.CommandLine.DocumentOrder
import ClusterRegistrar.Proofs.Base64
import ClusterRegistrar.Proofs.Base64.Strict
import ClusterRegistrar.Proofs.Manifest.Document
import ClusterRegistrar.Proofs.GeneratedSecret
import ClusterRegistrar.Proofs.CommandLine.Failures
import ClusterRegistrar.Proofs.Manifest.Foreign
import ClusterRegistrar.Proofs.CommandLine.ForeignDocuments
import ClusterRegistrar.Proofs.TakeAlong.Scan
import ClusterRegistrar.Proofs.TakeAlong.KeyOrder
import ClusterRegistrar.Proofs.Text.Lines
import ClusterRegistrar.Proofs.TextTree
import ClusterRegistrar.Proofs.Listing.Json
import ClusterRegistrar.Proofs.Yaml.Sharing
import ClusterRegistrar.Proofs.Json.Indented
import ClusterRegistrar.Proofs.GeneratedSecret.Tree
import ClusterRegistrar.Proofs.Yaml.Cursor
import ClusterRegistrar.Proofs.Yaml.Scalar.Quoted
import ClusterRegistrar.Proofs.Yaml.Scalar.Double
import ClusterRegistrar.Proofs.Yaml.Scalar.Runs
import ClusterRegistrar.Proofs.Yaml.Scalar.Single
import ClusterRegistrar.Proofs.Yaml.Scalar.Plain
import ClusterRegistrar.Proofs.Yaml.Scalar.Written
import ClusterRegistrar.Proofs.Yaml.Scanner
import ClusterRegistrar.Proofs.Yaml.Layout
import ClusterRegistrar.Proofs.Yaml.Documents
import ClusterRegistrar.Proofs.Yaml.Parse
import ClusterRegistrar.Proofs.Yaml.Build
import ClusterRegistrar.Proofs.Yaml.Stream
import ClusterRegistrar.Proofs.Listing.Yaml
import ClusterRegistrar.Proofs.Registration.Labels
import ClusterRegistrar.Proofs.Listing.Table
import ClusterRegistrar.Proofs.Manifest.Nulls

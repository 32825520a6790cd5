import RouteClient.Main
import RouteClient.Module.Context
import RouteClient.Settings.Document
import RouteClient.Proofs.Outcome
import RouteClient.Proofs.Text.ByteOrder
import RouteClient.Proofs.Text.Splitting
import RouteClient.Proofs.Text.Replacement
import RouteClient.Proofs.Code.Comment
import RouteClient.Proofs.Code.LineEnds
import RouteClient.Proofs.Code.LiteralReading
import RouteClient.Proofs.Files.PathSteps
import RouteClient.Proofs.Files.Entries
import RouteClient.Proofs.Files.Directories
import RouteClient.Proofs.Route.Scanning
import RouteClient.Proofs.Route.Contract
import RouteClient.Proofs.Route.LiteralValue
import RouteClient.Proofs.Route.PathBuilding
import RouteClient.Proofs.Route.Acceptance
import RouteClient.Proofs.Module.Tree
import RouteClient.Proofs.Module.Comparison
import RouteClient.Proofs.Module.Exports
import RouteClient.Proofs.Module.Resolution
import RouteClient.Proofs.Module.Rearrangement
import RouteClient.Proofs.Module.Locality
import RouteClient.Proofs.Module.Confinement
import RouteClient.Proofs.Module.Coexistence
import RouteClient.Proofs.Client.Capture
import RouteClient.Proofs.Client.Agreement
import RouteClient.Proofs.Run.Writing
import RouteClient.Proofs.Module.ImportBase
import RouteClient.Proofs.Run.Rendering
import RouteClient.Proofs.Json.Spelling
import RouteClient.Proofs.Json.Scalars
import RouteClient.Proofs.Json.Reading
import RouteClient.Proofs.Json.Decoding
import RouteClient.Proofs.Json.Records
import RouteClient.Proofs.Json.Writing
import RouteClient.Proofs.Route.DocumentReading
import RouteClient.Proofs.Json.Decoded
import RouteClient.Proofs.Route.DocumentWriting
import RouteClient.Proofs.Run.Placing
import RouteClient.Proofs.Run.Loading
import RouteClient.Proofs.Run.Effects
import RouteClient.Proofs.Route.Search
import RouteClient.Proofs.Client.Influence
import RouteClient.Proofs.Module.Offences
import RouteClient.Proofs.Module.LiteralSegments
import RouteClient.Proofs.Client.DocumentationLayout
import RouteClient.Proofs.Project.Exclusion
import RouteClient.Proofs.Code.ExportNames
import RouteClient.Proofs.CommandLine.PrettyReports
import RouteClient.Proofs.Files.Listing
import RouteClient.Proofs.Module.StringLiterals
import RouteClient.Proofs.Run.LoadingOrder
import RouteClient.Proofs.Run.Resolving
import RouteClient.Proofs.Module.Collecting
import RouteClient.Proofs.Module.CanonicalForm
import RouteClient.Proofs.Code.EscapedText
import RouteClient.Proofs.Module.HeaderComment

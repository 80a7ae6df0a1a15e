import Agid.Proofs.Corners
import Agid.Proofs.Hash
import Agid.Proofs.Prefix
import Agid.Proofs.ConflictLog
import Agid.Proofs.Privacy
import Agid.Proofs.SingleUse
import Agid.Proofs.Durable
import Agid.Proofs.PosTerminal
import Agid.Proofs.PosUsage
import Agid.Proofs.Temporal
import Agid.Proofs.Interchange
import Agid.Proofs.ShipLeases
import Agid.Proofs.ShipAttempts
import Agid.Proofs.LabelOutcomes
import Agid.Proofs.ShipIdempotency
import Agid.VeygritId
import Agid.VeygritIdRuns
import Agid.Proofs.VeygritId
import Agid.Proofs.Authorization
import Agid.Proofs.Families
import Agid.Proofs.Rotation
import Agid.Proofs.Reuse
import Agid.Proofs.ShipStatus
import Agid.Lib.Fips180
import Agid.JsText
import Agid.Sha256
import Agid.Proofs.Sha256
import Agid.Lib.Postings
import Agid.SpatialIndex
import Agid.Proofs.SpatialIndex
import Agid.Proofs.SpatialSearch
import Agid.Lib.JsonText
import Agid.JsonValues
import Agid.TrustPolicy
import Agid.RuntimeRelease
import Agid.Proofs.JsonValues
import Agid.Proofs.TrustPolicy
import Agid.Proofs.RuntimeRelease
import Agid.Lib.Triangles
import Agid.TerrainMesh
import Agid.Proofs.TerrainMesh
import Agid.Contracts
import Agid.EthereumRegistry
import Agid.Proofs.Contracts
import Agid.Proofs.EthereumRegistry
import Agid.RateLimit
import Agid.Proofs.RateLimit
import Agid.Lib.JsonTree
import Agid.ZkProofBundles
import Agid.Proofs.ZkProofBundles
import Agid.PublicPrivate
import Agid.Proofs.PublicPrivate
import Agid.DurableRegistry
import Agid.Proofs.DurableRegistry
import Agid.RegistryAdapters
import Agid.Proofs.RegistryAdapters
import Agid.RegistryApi
import Agid.HostedRegistry
import Agid.Proofs.RegistryApi
import Agid.Proofs.HostedRegistry
import Agid.LabelManagement
import Agid.Proofs.LabelManagement
import Agid.NativeChecked
import Agid.Proofs.NativeChecked
import Agid.EthereumPayment
import Agid.Lib.Decimal
import Agid.EthereumPayment
import Agid.Proofs.EthereumPayment
import Agid.IssuerTrust
import Agid.Proofs.IssuerTrust
import Agid.RegistryFailures
import Agid.Proofs.RegistryFailures
import Agid.PostgresLedger
import Agid.Proofs.PostgresLedger
import Agid.LabelScans
import Agid.Proofs.LabelScans
import Agid.MorphismNetwork
import Agid.Proofs.MorphismNetwork
import Agid.RegionGrid
import Agid.Proofs.RegionGrid
import Agid.Lib.JsonStrings
import Agid.Lib.StableSort
import Agid.Proofs.TextBytes
import Agid.CheckpointBinding
import Agid.Proofs.CheckpointBinding
import Agid.GeoTiffWindows
import Agid.Proofs.GeoTiffWindows
import Agid.Lib.GridMesh
import Agid.MeshTopology
import Agid.Proofs.MeshTopology
import Agid.RateQuotes
import Agid.Proofs.RateQuotes
import Agid.Lib.EditDistance
import Agid.AddressMatch
import Agid.Proofs.AddressMatch
import Agid.RingTopology
import Agid.Proofs.RingTopology
import Agid.PointLocation
import Agid.Proofs.PointLocation
import Agid.PostalContext
import Agid.PackValidation
import Agid.ContextResolver
import Agid.GeometryBuckets
import Agid.PackRuntime
import Agid.Proofs.PackRuntime
import Agid.Proofs.GeometryBuckets
import Agid.Proofs.SpatialScans
import Agid.Lib.MaximalPaths
import Agid.PostalLookup
import Agid.Proofs.PostalLookup
import Agid.Lib.ClosedLines
import Agid.ContourLines
import Agid.Proofs.ContourLines
import Agid.NoDataCells
import Agid.Proofs.NoDataCells
import Agid.Lib.JsonRead
import Agid.JsonParse
import Agid.SourceTiling
import Agid.Proofs.SourceTiling
import Agid.PostalCodeEngine
import Agid.Lib.GreedySelection
import Agid.Proofs.LocalityCodes
import Agid.Proofs.LocalitySeparation
import Agid.Aoid
import Agid.Proofs.Aoid
import Agid.Lib.GreedyGroups
import Agid.Lib.Hmac
import Agid.Lib.Regroup
import Agid.PlaylistWebhook
import Agid.PostalCodeCounts
import Agid.Proofs.PlaylistWebhook
import Agid.Proofs.StructuralEquivalence
import Agid.SecureBase32
import Agid.Proofs.SecureBase32
import Agid.Proofs.PostalCodeCounts
import Agid.AddressCredential
import Agid.AppDatabase
import Agid.FederatedResolver
import Agid.Proofs.AddressCredential
import Agid.Proofs.AppDatabase
import Agid.Proofs.FederatedResolver
import Agid.RedactedWorkflow
import Agid.Table
import Agid.Proofs.Table
import Agid.ClockObjects
import Agid.Proofs.ClockObjects

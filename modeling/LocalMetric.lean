import LocalMetric.Associations
import LocalMetric.Cli.Command
import LocalMetric.Cli.Grammar
import LocalMetric.Clustering.Density
import LocalMetric.Clustering.External
import LocalMetric.Clustering.Internal
import LocalMetric.Clustering.Selection
import LocalMetric.Clustering.Variant
import LocalMetric.Database
import LocalMetric.Decimal.Binary
import LocalMetric.Decimal.Digits
import LocalMetric.Decimal.Reading
import LocalMetric.Decimal.Style
import LocalMetric.Distance.Counter
import LocalMetric.Distance.Quadratic
import LocalMetric.Fault
import LocalMetric.Json.Basic
import LocalMetric.Json.Conversion
import LocalMetric.Json.Payload
import LocalMetric.Json.Printer
import LocalMetric.Json.Reader
import LocalMetric.Json.Tagged
import LocalMetric.Linear.Broadcast
import LocalMetric.Linear.DataArray
import LocalMetric.Linear.Eigen
import LocalMetric.Linear.EntryType
import LocalMetric.Linear.IntegerWidth
import LocalMetric.Linear.Mat
import LocalMetric.Linear.Rotation
import LocalMetric.Linear.Tensor
import LocalMetric.Main
import LocalMetric.Path
import LocalMetric.Pca.Basic
import LocalMetric.Pca.Config
import LocalMetric.Pca.Neighborhood
import LocalMetric.Pca.Spectrum
import LocalMetric.Pca.Stated
import LocalMetric.Pca.Weight
import LocalMetric.PointSet
import LocalMetric.Preprocessor
import LocalMetric.Provider
import LocalMetric.Quantity
import LocalMetric.Registry
import LocalMetric.Report.Csv
import LocalMetric.Report.Points
import LocalMetric.Run.ArrayFile
import LocalMetric.Run.Clock
import LocalMetric.Run.Cluster
import LocalMetric.Run.Context
import LocalMetric.Run.Disk
import LocalMetric.Run.Effect
import LocalMetric.Run.Features
import LocalMetric.Run.Preprocess
import LocalMetric.Run.Request
import LocalMetric.Scalar
import LocalMetric.Session
import LocalMetric.Table
import LocalMetric.Text.Classes
import LocalMetric.Text.Number
import LocalMetric.Text.Printable
import LocalMetric.Text.Quoted
import LocalMetric.Proofs.Checked
import LocalMetric.Proofs.Runs
import LocalMetric.Proofs.Histories
import LocalMetric.Proofs.Distances
import LocalMetric.Proofs.Failures
import LocalMetric.Proofs.Readiness
import LocalMetric.Proofs.Provenance
import LocalMetric.Proofs.DistanceMatrices
import LocalMetric.Proofs.Matrices
import LocalMetric.Proofs.Eigenpairs
import LocalMetric.Proofs.Dimensions
import LocalMetric.Proofs.Analyses
import LocalMetric.Proofs.Preparations
import LocalMetric.Proofs.StrongDirections
import LocalMetric.Proofs.EigenvectorChoice
import LocalMetric.Proofs.Distortion
import LocalMetric.Proofs.StricterSettings
import LocalMetric.Proofs.Completion
import LocalMetric.Proofs.Accounts
import LocalMetric.Proofs.Neighbors
import LocalMetric.Proofs.Similarities
import LocalMetric.Proofs.Equivariance
import LocalMetric.Proofs.Hosts
import LocalMetric.Proofs.Requests
import LocalMetric.Proofs.Pipelines
import LocalMetric.Proofs.ValidRuns
import LocalMetric.Proofs.Floods
import LocalMetric.Proofs.DensityGrowth
import LocalMetric.Proofs.DensityClusterings
import LocalMetric.Proofs.GrowingRadii
import LocalMetric.Proofs.Paths
import LocalMetric.Proofs.Effects
import LocalMetric.Proofs.Containment
import LocalMetric.Proofs.SignificantDigits
import LocalMetric.Proofs.NumberTexts
import LocalMetric.Proofs.Doubles
import LocalMetric.Proofs.VariantNames
import LocalMetric.Proofs.ExtendedReals
import LocalMetric.Proofs.SpecialValues
import LocalMetric.Proofs.UndefinedWeights
import LocalMetric.Proofs.Locality
import LocalMetric.Proofs.Logs
import LocalMetric.Proofs.Endings
import LocalMetric.Proofs.Disks
import LocalMetric.Proofs.AllOrNothing
import LocalMetric.Proofs.Ascending
import LocalMetric.Proofs.Journals
import LocalMetric.Proofs.Writers
import LocalMetric.Proofs.LeastPrefixes
import LocalMetric.Proofs.Decompositions
import LocalMetric.Proofs.ScatterMatrices
import LocalMetric.Proofs.NeighborQueries
import LocalMetric.Proofs.AcceptedWeights
import LocalMetric.Proofs.SanitizedRadii
import LocalMetric.Proofs.FirstBests
import LocalMetric.Proofs.Refusals
import LocalMetric.Proofs.Readmissions
import LocalMetric.Proofs.ResultEntries
import LocalMetric.Proofs.PairConfusion
import LocalMetric.Proofs.OutputRoots
import LocalMetric.Proofs.PointTables
import LocalMetric.Proofs.ClampedSpectra
import LocalMetric.Proofs.WeightSums
import LocalMetric.Proofs.NormalForms
import LocalMetric.Proofs.ShortestTexts
import LocalMetric.Proofs.JsonWords
import LocalMetric.Proofs.JsonTexts
import LocalMetric.Proofs.ReportTexts
import LocalMetric.Proofs.DoubleSums
import LocalMetric.Proofs.Tallies
import LocalMetric.Proofs.StructuralAnalyses
import LocalMetric.Proofs.Reports

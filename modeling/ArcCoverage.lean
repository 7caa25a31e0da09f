import ArcCoverage.Main
import ArcCoverage.Proofs.Flow.Reconstruction
import ArcCoverage.Proofs.Profile.WrittenData
import ArcCoverage.Proofs.Report.CheckedRows
import ArcCoverage.Proofs.Report.RejectedData
import ArcCoverage.Session.Basic
import ArcCoverage.Proofs.Report.CoveredLines
import ArcCoverage.Proofs.Report.BothFormats
import ArcCoverage.Proofs.Report.Attribution
import ArcCoverage.Proofs.Report.BranchTotals
import ArcCoverage.Proofs.Session.Watching
import ArcCoverage.Proofs.Session.Protocol
import ArcCoverage.Proofs.Session.Appending
import ArcCoverage.Proofs.Session.Sources
import ArcCoverage.Proofs.Report.FileNames
import ArcCoverage.Proofs.Report.PreservedPaths
import ArcCoverage.Proofs.Session.Ledger
import ArcCoverage.Proofs.Report.Turns
import ArcCoverage.Proofs.Report.Confinement
import ArcCoverage.Proofs.Report.DistinctNames
import ArcCoverage.Proofs.Report.Announcements
import ArcCoverage.Proofs.Flow.Balance
import ArcCoverage.Proofs.Flow.LeastFixpoint
import ArcCoverage.Proofs.Report.FunctionSummary
import ArcCoverage.Proofs.Format.Boundaries
import ArcCoverage.Proofs.Profile.Truncation
import ArcCoverage.Proofs.Profile.UnknownRecords
import ArcCoverage.Proofs.Report.ExactGroups
import ArcCoverage.Proofs.Report.Layout
import ArcCoverage.Proofs.Report.BranchShares
import ArcCoverage.Proofs.Artifact.Extensions
import ArcCoverage.Proofs.Format.Spelling
import ArcCoverage.Proofs.Profile.LineRecords
import ArcCoverage.Proofs.Format.EitherOrder
import ArcCoverage.Proofs.Profile.EitherOrder
import ArcCoverage.Proofs.Format.LocalReads
import ArcCoverage.Proofs.Format.NestedCursors

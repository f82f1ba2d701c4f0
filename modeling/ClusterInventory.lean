import ClusterInventory.Main
import ClusterInventory.Proofs.Filter
import ClusterInventory.Proofs.Merge
import ClusterInventory.Proofs.Schedule
import ClusterInventory.Proofs.Accounting
import ClusterInventory.Proofs.Collection
import ClusterInventory.Proofs.Catalog
import ClusterInventory.Proofs.Command
import ClusterInventory.Proofs.Restriction
import ClusterInventory.Proofs.Completeness
import ClusterInventory.Proofs.Fields
import ClusterInventory.Proofs.Survey
import ClusterInventory.Proofs.Ranking
import ClusterInventory.Proofs.Documents
import ClusterInventory.Proofs.Success
import ClusterInventory.Proofs.Versions
import ClusterInventory.Proofs.Isolation
import ClusterInventory.Proofs.Interference
import ClusterInventory.Proofs.Reordering
import ClusterInventory.Proofs.Reference
import ClusterInventory.Proofs.Reprint
import ClusterInventory.Proofs.Levels
import ClusterInventory.Proofs.Places
import ClusterInventory.Proofs.Configuration
import ClusterInventory.Proofs.Failure
import ClusterInventory.Proofs.Parts
import ClusterInventory.Proofs.Consistency
import ClusterInventory.Proofs.Steady
import ClusterInventory.Proofs.Fallback
import ClusterInventory.Proofs.Announcement
import ClusterInventory.Proofs.Resolution
import ClusterInventory.Proofs.Monotonicity
import ClusterInventory.Proofs.Sifting
import ClusterInventory.Proofs.Contexts
import ClusterInventory.Proofs.Enumeration
import ClusterInventory.Proofs.Spelling
import ClusterInventory.Proofs.Saving
import ClusterInventory.Proofs.Output
import ClusterInventory.Proofs.Warnings

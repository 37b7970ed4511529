import Docking.Catalogue.File
import Docking.Files.Logs
import Docking.Trace.Manager
import Docking.Proofs.Layout.SingleOccupancy
import Docking.Proofs.Layout.Verdict
import Docking.Proofs.Stored.RoundTrip
import Docking.Proofs.Layout.Thinning
import Docking.Proofs.Layout.Start
import Docking.Proofs.Json.Finite
import Docking.Proofs.Stored.ClosedForm
import Docking.Proofs.Layout.Snapshot
import Docking.Proofs.Layout.Report
import Docking.Proofs.Manager.Persistence
import Docking.Proofs.Layout.Protection
import Docking.Proofs.Layout.SizeBounds
import Docking.Proofs.Manager.Failures
import Docking.Proofs.Stored.Inheritance
import Docking.Proofs.Layout.Independence
import Docking.Proofs.Catalogue.Validation
import Docking.Proofs.Layout.HiddenSlot
import Docking.Proofs.Store.Refinement
import Docking.Proofs.Layout.Rejection
import Docking.Proofs.Stored.LiveClamp
import Docking.Proofs.Catalogue.Merge
import Docking.Proofs.Layout.SizeInterval
import Docking.Proofs.Layout.Undo
import Docking.Proofs.Layout.MoveAgain
import Docking.Proofs.Layout.Violations
import Docking.Proofs.Layout.Difference
import Docking.Proofs.Layout.Repair
import Docking.Proofs.Store.Interruption

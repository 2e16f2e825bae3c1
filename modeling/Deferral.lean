import Deferral.Main
import Deferral.Failure.Family
import Deferral.Proofs.Calendar.Arithmetic
import Deferral.Proofs.Calendar.IsoRoundTrip
import Deferral.Proofs.Calendar.Pivots
import Deferral.Proofs.CommandLine.Enqueue
import Deferral.Proofs.Directive.Acceptance
import Deferral.Proofs.Directive.Delays
import Deferral.Proofs.Directive.Pinning
import Deferral.Proofs.Directive.Rendering
import Deferral.Proofs.Directive.Renumbering
import Deferral.Proofs.Directive.Rewriting
import Deferral.Proofs.Directive.Stamps
import Deferral.Proofs.Directive.Surroundings
import Deferral.Proofs.Item.Ageing
import Deferral.Proofs.Item.Records
import Deferral.Proofs.Item.Threads
import Deferral.Proofs.Job.DryRun
import Deferral.Proofs.Job.Precision
import Deferral.Proofs.Settings.Layers
import Deferral.Proofs.Store.Atomicity
import Deferral.Proofs.Store.Deletion
import Deferral.Proofs.Store.Delivery
import Deferral.Proofs.Store.Durability
import Deferral.Proofs.Store.Locality
import Deferral.Proofs.Store.Redaction
import Deferral.Proofs.Value.Equality

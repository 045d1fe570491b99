import Guise.Log.Line
import Guise.Proofs.Cell
import Guise.Proofs.Dropping
import Guise.Proofs.Sharing
import Guise.Settings.Source
import Guise.Proofs.ByHand
import Guise.Proofs.Alike
import Guise.Proofs.Resolving
import Guise.Proofs.Suspending
import Guise.Proofs.Configuring
import Guise.Proofs.Isolation
import Guise.Proofs.Binding
import Guise.Proofs.Audit
import Guise.Proofs.Spans
import Guise.Proofs.RoundTrip
import Guise.Proofs.Overlapping
import Guise.Proofs.Undoing
import Guise.Proofs.Removing
import Guise.Proofs.Answers
import Guise.Proofs.Stores
import Guise.Proofs.Checking
import Guise.Proofs.Handles
import Guise.Proofs.Flattening
import Guise.Proofs.Collecting
import Guise.Proofs.Layering
import Guise.Proofs.Admitting
import Guise.Proofs.Exchanging
import Guise.Proofs.Naming
import Guise.Proofs.Ending
import Guise.Proofs.Supply

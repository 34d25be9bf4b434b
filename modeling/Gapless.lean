import Gapless.Metrics
import Gapless.Sharing
import Gapless.Session
import Gapless.CommandLine.Command
import Gapless.Main
import Gapless.Proofs.ByteMap
import Gapless.Proofs.Separation
import Gapless.Proofs.Merging
import Gapless.Proofs.Trimming
import Gapless.Proofs.Sound
import Gapless.Proofs.Admission
import Gapless.Proofs.History
import Gapless.Proofs.Planning
import Gapless.Proofs.Refinement
import Gapless.Proofs.Replaying
import Gapless.Proofs.Alike
import Gapless.Proofs.Accounting
import Gapless.Proofs.Reordering
import Gapless.Proofs.Draining
import Gapless.Proofs.Cutting
import Gapless.Proofs.Repeating
import Gapless.Proofs.Protocol
import Gapless.Proofs.Ledger
import Gapless.Proofs.Bookkeeping
import Gapless.Proofs.Queueing
import Gapless.Proofs.Handouts
import Gapless.Proofs.Sessions
import Gapless.Proofs.Retransmission
import Gapless.Proofs.Handles
import Gapless.Proofs.Turning
import Gapless.Proofs.Between
import Gapless.Proofs.Refusals
import Gapless.Proofs.Totals
import Gapless.Proofs.FrontEnds
import Gapless.Proofs.Ending
import Gapless.Proofs.Awaiting
import Gapless.Proofs.Changes
import Gapless.Proofs.Inserting
import Gapless.Proofs.Overlaps
import Gapless.Proofs.Clipping
import Gapless.Proofs.Discarding
import Gapless.Proofs.Sending
import Gapless.Proofs.Gulps
import Gapless.Proofs.Stalls
import Gapless.Proofs.Budget
import Gapless.Proofs.Interleaving
import Gapless.Proofs.Lookups
import Gapless.Proofs.Trials
import Gapless.Proofs.Logging
import Gapless.Proofs.Checking
import Gapless.Proofs.Arithmetic

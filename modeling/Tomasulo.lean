import Tomasulo.CommandLine.Response
import Tomasulo.Main
import Tomasulo.Run.Exchange
import Tomasulo.Proofs.Journal
import Tomasulo.Proofs.Pool
import Tomasulo.Proofs.Position
import Tomasulo.Proofs.Storage
import Tomasulo.Proofs.Task
import Tomasulo.Proofs.Plan
import Tomasulo.Proofs.Lifecycle
import Tomasulo.Proofs.Content
import Tomasulo.Proofs.Renaming
import Tomasulo.Proofs.Dataflow
import Tomasulo.Proofs.Access
import Tomasulo.Proofs.MemoryOrder
import Tomasulo.Proofs.Seeding
import Tomasulo.Proofs.Cells
import Tomasulo.Proofs.InOrder
import Tomasulo.Proofs.Standstill
import Tomasulo.Proofs.Accounts
import Tomasulo.Proofs.Timeline
import Tomasulo.Proofs.Completion
import Tomasulo.Proofs.Replay
import Tomasulo.Proofs.Ending
import Tomasulo.Proofs.Cap
import Tomasulo.Proofs.Renumbering
import Tomasulo.Proofs.Lockstep
import Tomasulo.Proofs.Occupancy
import Tomasulo.Proofs.Narration
import Tomasulo.Proofs.MemoryHistory
import Tomasulo.Proofs.StoreFree
import Tomasulo.Proofs.Source
import Tomasulo.Proofs.Fetching
import Tomasulo.Proofs.Lookahead
import Tomasulo.Proofs.Checked
import Tomasulo.Proofs.Pieces
import Tomasulo.Proofs.Statement
import Tomasulo.Proofs.Noise
import Tomasulo.Proofs.Numeral
import Tomasulo.Proofs.Seeded
import Tomasulo.Proofs.Provision
import Tomasulo.Proofs.Validation
import Tomasulo.Proofs.RegisterListing
import Tomasulo.Proofs.Decoding

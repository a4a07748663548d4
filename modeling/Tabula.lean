import Tabula.Main
import Tabula.Statement.Printer
import Tabula.Proofs.Attempt
import Tabula.Proofs.Reach
import Tabula.Proofs.Operations
import Tabula.Proofs.Uniqueness
import Tabula.Proofs.Atomicity
import Tabula.Proofs.Declaration
import Tabula.Proofs.Integrity
import Tabula.Proofs.Insertion
import Tabula.Proofs.Agreement
import Tabula.Proofs.Joining
import Tabula.Proofs.Binding
import Tabula.Proofs.Selection
import Tabula.Proofs.Filtering
import Tabula.Proofs.Lexing
import Tabula.Proofs.Tokens
import Tabula.Proofs.Readable
import Tabula.Proofs.Parts
import Tabula.Proofs.RoundTrip
import Tabula.Proofs.Batches
import Tabula.Proofs.Paging
import Tabula.Proofs.Lookahead
import Tabula.Proofs.Tiling
import Tabula.Proofs.Carrying
import Tabula.Proofs.Concatenation
import Tabula.Proofs.Typing
import Tabula.Proofs.Quotation
import Tabula.Proofs.Grounding
import Tabula.Proofs.Acceptance
import Tabula.Proofs.Exchange
import Tabula.Proofs.Layout
import Tabula.Proofs.Commuting
import Tabula.Proofs.Stamping
import Tabula.Proofs.Numbering
import Tabula.Proofs.Sorting
import Tabula.Proofs.Judging
import Tabula.Proofs.Reception
import Tabula.Proofs.Stopping
import Tabula.Proofs.Updating
import Tabula.Proofs.Comparing
import Tabula.Proofs.Suppression
import Tabula.Proofs.Guarding
import Tabula.Proofs.Appending
import Tabula.Proofs.Counting
import Tabula.Proofs.Naming
import Tabula.Proofs.Spacing
import Tabula.Proofs.Numerals
import Tabula.Proofs.Chronology
import Tabula.Proofs.Blocks
import Tabula.Proofs.Timestamps
import Tabula.Proofs.Dates
import Tabula.Proofs.Inference
import Tabula.Proofs.References
import Tabula.Proofs.Supplying
import Tabula.Proofs.Session
import Tabula.Proofs.Membership
import Tabula.Proofs.Display
import Tabula.Proofs.Configuring
import Tabula.Proofs.Lines
import Tabula.Proofs.Portions

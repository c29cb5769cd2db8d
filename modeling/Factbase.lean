import Factbase.Proofs.Backends
import Factbase.Proofs.ClauseOrder
import Factbase.Proofs.Commit
import Factbase.Proofs.CompleteRows
import Factbase.Proofs.Conformance
import Factbase.Proofs.Copy
import Factbase.Proofs.Dense
import Factbase.Proofs.Dropped
import Factbase.Proofs.Encoding
import Factbase.Proofs.Equality
import Factbase.Proofs.FirstTransaction
import Factbase.Proofs.FullScan
import Factbase.Proofs.Hiding
import Factbase.Proofs.NewNames
import Factbase.Proofs.Notation.FirstFault
import Factbase.Proofs.Notation.Print
import Factbase.Proofs.ReadBack
import Factbase.Proofs.Reserved
import Factbase.Proofs.Selection
import Factbase.Proofs.Serving
import Factbase.Proofs.Shorthand
import Factbase.Proofs.Sorting
import Factbase.Proofs.Spelling
import Factbase.Proofs.UnknownAttribute
import Factbase.Proofs.ValueOrder
import Factbase.Proofs.Visibility
import Factbase.Service
import Factbase.Settings

import Carve.Proofs.Document.Locality
import Carve.Proofs.Floating
import Carve.Proofs.Frame
import Carve.Proofs.History
import Carve.Proofs.Integer
import Carve.Proofs.Limit
import Carve.Proofs.Literal.Hexadecimal
import Carve.Proofs.Loading
import Carve.Proofs.Options
import Carve.Proofs.Pass.Extension
import Carve.Proofs.Plan.Respelling
import Carve.Proofs.Plan.Spelling
import Carve.Proofs.Record
import Carve.Proofs.RoundTrip
import Carve.Proofs.Scan.Ledger
import Carve.Proofs.Utf8

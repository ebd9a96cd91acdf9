import Sexp.Builder
import Sexp.Form.Balance
import Sexp.Form.Descent
import Sexp.Form.Summary
import Sexp.Json.Canonical
import Sexp.Json.Text
import Sexp.Proofs.Nesting
import Sexp.Proofs.Words
import Sexp.Token.Layout
import Sexp.Trace
import Sexp.Workbench
import Sexp.Proofs.Pieces
import Sexp.Proofs.Scanning
import Sexp.Proofs.Printing
import Sexp.Proofs.Brackets
import Sexp.Proofs.Broken
import Sexp.Proofs.Progress
import Sexp.Proofs.OnePass
import Sexp.Proofs.Completion
import Sexp.Proofs.Places
import Sexp.Proofs.Resumption
import Sexp.Proofs.Relocation
import Sexp.Proofs.Concatenation
import Sexp.Proofs.Spacing
import Sexp.Proofs.Segments
import Sexp.Proofs.Interchange
import Sexp.Proofs.Extents
import Sexp.Proofs.Quotes
import Sexp.Proofs.Viability
import Sexp.Proofs.Record
import Sexp.Proofs.Messages
import Sexp.Proofs.Following

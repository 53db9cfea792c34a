import Abacus.Diagnostic.Position
import Abacus.Main
import Abacus.Proofs.Binary64.Nearest
import Abacus.Proofs.Binary64.Plain
import Abacus.Proofs.Grammar.Derivation
import Abacus.Proofs.Grammar.Machine
import Abacus.Proofs.Grammar.Acceptance
import Abacus.Proofs.Grammar.Correspondence
import Abacus.Proofs.Grammar.Refusal
import Abacus.Proofs.Grammar.Traversal
import Abacus.Proofs.Token.Munch
import Abacus.Proofs.Token.Scanning
import Abacus.Proofs.Token.Spacing
import Abacus.Proofs.Token.Tiling
import Abacus.Proofs.Program.Canonical
import Abacus.Proofs.Program.RoundTrip
import Abacus.Proofs.Program.Juxtaposition
import Abacus.Proofs.Program.Parentheses
import Abacus.Proofs.Program.Respacing
import Abacus.Proofs.Diagnostic.Location
import Abacus.Proofs.Session.Lines
import Abacus.Proofs.Session.Echo
import Abacus.Proofs.Binary64.Marked
import Abacus.Proofs.Program.Distinctness
import Abacus.Proofs.Grammar.Excess
import Abacus.Proofs.Grammar.Precedence
import Abacus.Proofs.Command.Formatting
import Abacus.Proofs.Program.Wrapping
import Abacus.Proofs.Grammar.Unclosed
import Abacus.Proofs.Binary64.Overflow
import Abacus.Proofs.Diagnostic.Offset
import Abacus.Proofs.Program.Literals
import Abacus.Proofs.Program.Nesting
import Abacus.Proofs.Program.Outline
import Abacus.Proofs.Grammar.Reserved
import Abacus.Proofs.Token.Cursor
import Abacus.Proofs.Grammar.Descent
import Abacus.Proofs.Grammar.Simulation

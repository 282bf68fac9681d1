import Cryptoki.Mechanism.Printer
import Cryptoki.Proofs.Attribute.Canonical
import Cryptoki.Proofs.Date.Clock
import Cryptoki.Proofs.Mechanism.Withdrawal
import Cryptoki.Proofs.Object.Loading
import Cryptoki.Proofs.Object.Resolution
import Cryptoki.Proofs.Operation.Record
import Cryptoki.Proofs.Session.Interleaving
import Cryptoki.Proofs.Session.Lengths
import Cryptoki.Proofs.Session.Reuse
import Cryptoki.Proofs.Session.Sizes
import Cryptoki.Proofs.Session.Stale
import Cryptoki.Proofs.Session.Verbatim
import Cryptoki.Proofs.Session.Verdict
import Cryptoki.Proofs.Session.Windows
import Cryptoki.Proofs.Text.Disclosure
import Cryptoki.Proofs.Text.Padding
import Cryptoki.Proofs.Text.Renderings

import Overlay.Codec.Cache
import Overlay.Codec.Config
import Overlay.Codec.Ledger
import Overlay.Ledger.Scripted
import Overlay.Proofs.Aliveness
import Overlay.Proofs.Balance
import Overlay.Proofs.Coherence
import Overlay.Proofs.Commit
import Overlay.Proofs.Commute
import Overlay.Proofs.Config
import Overlay.Proofs.Discipline
import Overlay.Proofs.Finality
import Overlay.Proofs.Flags
import Overlay.Proofs.History
import Overlay.Proofs.Lexeme
import Overlay.Proofs.Marks
import Overlay.Proofs.Nonce
import Overlay.Proofs.Preload
import Overlay.Proofs.Pricing
import Overlay.Proofs.Print
import Overlay.Proofs.Reading
import Overlay.Proofs.Retry
import Overlay.Proofs.Roundtrip
import Overlay.Proofs.Scalar
import Overlay.Proofs.Slots
import Overlay.Proofs.Transfer
import Overlay.Proofs.Warming
import Overlay.Proofs.Wrapping

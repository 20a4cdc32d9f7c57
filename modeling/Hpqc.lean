import Hpqc.Go
import Hpqc.Kem.Hybrid.Identity
import Hpqc.Kem.Schemes
import Hpqc.Kem.Hybrid.Layout
import Hpqc.Kem.Hybrid.Generation
import Hpqc.Sign.Ed25519.PublicHalf
import Hpqc.Sign.Ed25519.PublicKeys
import Hpqc.Sign.Ed25519.Ecdh

import DkgKit.LucasCertificate
import DkgKit.ShortWeierstrass
import DkgKit.BigEndian
import DkgKit.HexText
import DkgKit.GaussJordan
import DkgKit.DerivativeZeros
import DkgKit.BirkhoffMatrix
import DkgKit.BirkhoffSecrecy
import DkgKit.ListCounting
import DkgKit.LoopRules
import DkgKit.StatefulPrograms
import DkgKit.SeparatedText
import DkgKit.SelectiveQueue
import DkgKit.OneShotTokens
import DkgKit.LatestByKey
import DkgKit.OrderedMaps
import DkgKit.SignedTweaks
import DkgKit.Secp256k1
import DkgKit.PointEncoding
import DkgKit.Core
import DkgKit.SignerSet
import DkgKit.Solver
import DkgKit.Birkhoff
import DkgKit.Interpolation
import DkgKit.Keygen
import DkgKit.Dkg
import DkgKit.Ceremony
import DkgKit.Signing
import DkgKit.OutputSigning
import DkgKit.BitcoinKeys
import DkgKit.Taproot
import DkgKit.Quorums
import DkgKit.KeyLifetime
import DkgKit.Secrecy
import DkgKit.Policies
import DkgKit.Messages
import DkgKit.Nostr
import DkgKit.Relay
import DkgKit.LiveTransport
import DkgKit.LiveConnections
import DkgKit.RelayStorage
import DkgKit.Packages
import DkgKit.Coordinator
import DkgKit.NostrCoordinator
import DkgKit.DkgSession
import DkgKit.Finalize
import DkgKit.SigningSession
import DkgKit.NonceBinding
import DkgKit.PartyIndices
import DkgKit.Authorization
import DkgKit.Verification
import DkgKit.LocalSigning
import DkgKit.FrostCeremony
import DkgKit.LiveCeremony
import DkgKit.LiveLinks
import DkgKit.LiveRuns
import DkgKit.LocalFrostSigning
import DkgKit.NonceReuse
import DkgKit.RogueKey
import DkgKit.SessionBuilder
import DkgKit.Spends
import DkgKit.VaultRuns

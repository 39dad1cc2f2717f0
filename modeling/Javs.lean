import Javs.Rekeying
import Javs.Silence
import Javs.AckLedger
import Javs.Addresses
import Javs.Connect
import Javs.Delivery
import Javs.Generation
import Javs.Isolation
import Javs.Lib.Blocks
import Javs.Lib.Cursor
import Javs.Lib.Lines
import Javs.Literal
import Javs.Masquerade
import Javs.Panics
import Javs.PeerIds
import Javs.PrfStream
import Javs.PushRequest
import Javs.Replayed
import Javs.Retransmit
import Javs.StaticKey
import Javs.Supply
import Javs.Transports
import Javs.Tunnel

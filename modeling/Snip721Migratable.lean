import Snip721Migratable.Lib.Program
import Snip721Migratable.Lib.Store
import Snip721Migratable.Lib.Footprint
import Snip721Migratable.Lib.Json
import Snip721Migratable.Lib.JsonBytes
import Snip721Migratable.Lib.JsonCodec
import Snip721Migratable.Lib.Registry
import Snip721Migratable.Lib.Transaction
import Snip721Migratable.Lib.Termination
import Snip721Migratable.Std
import Snip721Migratable.CwMigratable
import Snip721Migratable.ReferenceImpl
import Snip721Migratable.Crates
import Snip721Migratable.Dealer.State
import Snip721Migratable.Dealer.Msg
import Snip721Migratable.Dealer.Contract
import Snip721Migratable.Dealer.Spec
import Snip721Migratable.Dealer.Run
import Snip721Migratable.Migratable.Contract
import Snip721Migratable.Migratable.Spec
import Snip721Migratable.Reference.Codecs
import Snip721Migratable.Reference.Crates
import Snip721Migratable.Reference.Sale
import Snip721Migratable.Dealer.ChildReference
import Snip721Migratable.Dealer.Prices
import Snip721Migratable.Dealer.Ledger
import Snip721Migratable.Dealer.Blocking
import Snip721Migratable.Migratable.Minters
import Snip721Migratable.Migratable.Slots
import Snip721Migratable.Footprints
import Snip721Migratable.Migratable.Layers
import Snip721Migratable.Messages
import Snip721Migratable.Subscribers
import Snip721Migratable.System.World
import Snip721Migratable.System.Deployment
import Snip721Migratable.Reference.Chain
import Snip721Migratable.Notifications
import Snip721Migratable.System.Handshake
import Snip721Migratable.System.Routing
import Snip721Migratable.System.Agreement
import Snip721Migratable.System.Books
import Snip721Migratable.System.Sales
import Snip721Migratable.System.Availability
import Snip721Migratable.System.Queries
import Snip721Migratable.System.Recovery
import Snip721Migratable.System.Completion
import Snip721Migratable.System.Replay
import Snip721Migratable.System.Supply
import Snip721Migratable.System.Termination

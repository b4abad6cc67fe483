import ComfortZone.Proofs.Tokens
import ComfortZone.Proofs.Lifecycle
import ComfortZone.Proofs.Dispatch
import ComfortZone.Proofs.Notifications
import ComfortZone.Proofs.Blocking
import ComfortZone.Proofs.Shutdown
import ComfortZone.Proofs.WrongFiber
import ComfortZone.Proofs.RoundRobin
import ComfortZone.Proofs.MainLoops
import ComfortZone.Proofs.Buffers
import ComfortZone.Proofs.Transfers
import ComfortZone.Proofs.Echo.Flags
import ComfortZone.Proofs.Echo.Pools
import ComfortZone.Proofs.Timers
import ComfortZone.Proofs.Files
import ComfortZone.Proofs.Listeners
import ComfortZone.Proofs.SocketChannels
import ComfortZone.Proofs.Writers
import ComfortZone.Proofs.Copies
import ComfortZone.Proofs.Control
import ComfortZone.Proofs.Echo.Timeouts
import ComfortZone.Proofs.Echo.Clients
import ComfortZone.Proofs.Echo.Endings
import ComfortZone.Proofs.Echo.Progress

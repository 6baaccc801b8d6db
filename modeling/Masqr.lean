import Masqr.Queue.Starvation
import Masqr.Queue.Conserving
import Masqr.Queue.Consumer
import Masqr.Queue.Standing
import Masqr.Queue.Stale
import Masqr.Queue.Willing
import Masqr.Queue.NewFlow
import Masqr.Queue.Overflow
import Masqr.Queue.Acks
import Masqr.Queue.Fairness
import Masqr.Lib.Run
import Masqr.Names.Sweep
import Masqr.Names.Watch
import Masqr.Dns.Guard
import Masqr.Tun.Routes
import Masqr.Tun.Outside
import Masqr.Tun.Books
import Masqr.Tun.Reading
import Masqr.Core.Interleaving
import Masqr.Core.LineSource
import Masqr.Control
import Masqr.Listing
import Masqr.Dns.Pinned
import Masqr.Dns.Answering
import Masqr.Dns.Asker
import Masqr.Dns.History
import Masqr.Dns.Eviction
import Masqr.Dns.Labels
import Masqr.Dns.Linear
import Masqr.Dns.Installed
import Masqr.Dns.Bounds
import Masqr.Dns.Failure
import Masqr.Dns.InFlight
import Masqr.Headers
import Masqr.Transport.Carriers
import Masqr.Transport.QpackEncode
import Masqr.Transport.Window
import Masqr.Warp.Enrolment
import Masqr.Engine.Parking
import Masqr.Transport.Handshake
import Masqr.Transport.Settings
import Masqr.Transport.ControlStream
import Masqr.Transport.Peer
import Masqr.Engine.Attempts
import Masqr.Engine.Opening
import Masqr.Engine.Traffic
import Masqr.Queue.Interval
import Masqr.Probe

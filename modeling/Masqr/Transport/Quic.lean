import Mathlib
import Masqr.Transport.ConnectIp
import Masqr.Transport.Http3

/-!
The HTTP/3 carrier: each packet of the tunnel a QUIC datagram.
-/

namespace Masqr.Transport.Quic

/-- Why the endpoint's side ended the tunnel, when it was not the connection failing. -/
inductive Ended
  | goingAway
  | broke (problem : Http3.H3Error)
  deriving DecidableEq

def Ended.error : Ended → ConnectError
  | .goingAway => .goingAway
  | .broke problem => .h3 problem

/-- The reason for a lost connection: what the endpoint's streams recorded, or else QUIC's own
account. -/
def gone (ended : Option Ended) (lost : String) : ConnectError :=
  match ended with
  | some ended => ended.error
  | none => .quic lost

/-- What a datagram can be turned down with. -/
inductive SendDatagramError
  | tooLarge
  | unsupportedByPeer
  | disabled
  | connectionLost (lost : String)
  deriving DecidableEq

/-- The connection as a sender finds it: what becomes of a datagram after so many others, and the
largest it takes. -/
structure Connection where
  sendDatagramWait : ℕ → List UInt8 → Except SendDatagramError Unit
  maxDatagramSize : Option ℕ

/-- The half that carries packets out. -/
structure Sender where
  streamId : ℕ
  ended : Option Ended
  deriving DecidableEq

/-- What became of a run of packets: how the call ended, the packets as it left them, and the
datagrams the connection took. -/
structure Sent where
  result : Except ConnectError Unit
  packets : List (List UInt8)
  datagrams : List (List UInt8)

def Sender.failure (sender : Sender) (connection : Connection) (packet : List UInt8) :
    SendDatagramError → ConnectError
  | .tooLarge => .h3Unfit (s!"a {packet.length}-byte packet no longer fits the path, which now " ++
      s!"takes {connection.maxDatagramSize.getD 0} bytes")
  | .unsupportedByPeer | .disabled => .h3Unfit "the endpoint stopped taking datagrams"
  | .connectionLost lost => gone sender.ended lost

/-- Send a run of packets after so many datagrams, one datagram each. -/
def Sender.sendAfter (sender : Sender) (connection : Connection) :
    ℕ → List (List UInt8) → Sent
  | _, [] => ⟨.ok (), [], []⟩
  | n, packet :: packets =>
    match decrementHopLimit packet with
    | (false, packet) =>
      let sent := sender.sendAfter connection n packets
      { sent with packets := packet :: sent.packets }
    | (true, packet) =>
      let datagram := Http3.datagram sender.streamId packet
      match connection.sendDatagramWait n datagram with
      | .ok () =>
        let sent := sender.sendAfter connection (n + 1) packets
        ⟨sent.result, packet :: sent.packets, datagram :: sent.datagrams⟩
      | .error problem => ⟨.error (sender.failure connection packet problem), packet :: packets, []⟩

def Sender.send (sender : Sender) (connection : Connection) (packets : List (List UInt8)) : Sent :=
  sender.sendAfter connection 0 packets

end Masqr.Transport.Quic

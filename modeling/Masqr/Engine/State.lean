import Mathlib
import Masqr.Lib.Run
import Masqr.Transport.Carrier

/-!
Keeping the tunnel up: the engine's loop, its pump and its waits, step by step.

A watch channel is a count of what was sent into it. A future that waits for a change holds the
count it had seen when it was first polled, and resolves once the channel is past it. Each first
poll is a step of its own, so whatever is sent before it is not waited for.
-/

namespace Masqr.Engine

open Masqr.Transport

/-- How long to wait before each retry, by the number of failures already seen in a row. -/
def BACKOFF : List Duration := [.secs 1, .secs 2, .secs 4, .secs 8, .secs 15]

def PING_EVERY : Duration := .secs 5
def PING_TIMEOUT : Duration := .secs 5

/-- How long the line is given to settle before the endpoint is asked about it. -/
def SETTLING : Duration := .millis 300

def CONNECT_TIMEOUT : Duration := .secs 20

def CUT_SHORT_BYTES : ℕ := 256 * 1024
def CUT_SHORT_WITHIN : Duration := .secs 60
def CUT_SHORT_RUN : ℕ := 3

/-- How often a tunnel over HTTP/2 looks at whether HTTP/3 may be tried again. -/
def UPGRADE_EVERY : Duration := .secs 30

/-- Whether a tunnel's life looks like a limit being enforced rather than a link going away. -/
def cutShortLife (lived : Duration) (carried : ℕ) : Bool :=
  decide (lived < CUT_SHORT_WITHIN ∧ carried < CUT_SHORT_BYTES)

/-- Where this machine was last seen to reach the HTTP/3 endpoint from. -/
structure EndpointLine where
  endpoint : Option IpAddr
  from? : Option IpAddr

/-- Look the source address up again, and say whether it differs from the last one seen. -/
def EndpointLine.moved (l : EndpointLine) (now : Option IpAddr) : Bool × EndpointLine :=
  match l.endpoint with
  | none => (true, l)
  | some _ => (decide (l.from? ≠ now), { l with from? := now })

/-! ### States -/

/-- A tunnel, and the step at which it opened. -/
structure Tunnel where
  stages : Stages
  begun : ℕ

/-- What an attempt is trying, and for HTTP/3 the step at which that began. -/
inductive Attempt
  | h3 (thenH2 : Bool) (begun : ℕ)
  | h2

/-- Where the future that asks whether the endpoint still answers is. -/
inductive Answering
  | entering
  | listening (seen : ℕ) (due : Instant)
  | settling (due : Instant)
  | probing (due : Instant)

/-- Where the future that tries HTTP/3 beside the tunnel is; over HTTP/3 it never does. -/
inductive Upgrading
  | never
  | sleeping (due : Instant)
  | trying (begun : ℕ) (due : Instant)

/-- The pump: its tunnel, and its futures other than the traffic. `asked` holds the count of
reconnects it has seen, once it is polled. -/
structure Pump where
  tunnel : Tunnel
  answering : Answering
  asked : Option ℕ
  upgrading : Upgrading

/-- Where the loop is. -/
inductive Place
  | top
  | connecting (attempt : Attempt) (due : Instant)
  | opened (tunnel : Tunnel)
  | pumping (pump : Pump)
  | ended (tunnel : Tunnel) (why : String)
  | failed (reason : String) (blocked : Bool)
  | waiting (due : Instant) (asked line : Option ℕ)

/-- What a run of the core is started with. -/
structure Config where
  choice : Choice
  handshake : Handshake

/-- The engine and what it shares. `source` is the address the machine reaches the endpoint from.
The last four say what has happened: how many steps, the last of them at which a reconnect was asked
for or the source changed, when what parked HTTP/3 began, and the reconnects asked for while the
phase was that the latest tunnel is up, by their numbers. -/
structure State where
  core : Core
  line : ℕ
  parking : Parking
  now : Instant
  source : Option IpAddr
  failures : ℕ
  cutShort : ℕ
  upgraded : Bool
  handed : Option Tunnel
  endpointLine : EndpointLine
  openedAt : Instant
  place : Place
  count : ℕ
  notice : ℕ
  parkedBy : ℕ
  upCalls : List ℕ

namespace State

variable (s : State)

def parked : Bool := s.parking.parked s.now

def park (begun : ℕ) : State := { s with parking := .park s.now, parkedBy := begun }

def unpark : State := { s with parking := .unpark }

/-- The line changed: HTTP/3 gets another try where the source address moved. -/
def lookAgain : State :=
  let r := s.endpointLine.moved s.source
  { s with endpointLine := r.2, parking := if r.1 then .unpark else s.parking }

def publish (phase : Phase) : State := { s with core := { s.core with phase := phase } }

/-- A tunnel is up. -/
def up (tunnel : Tunnel) : State :=
  { s.publish (.up tunnel.stages) with
    failures := 0
    openedAt := s.now
    upCalls := []
    place := .opened tunnel }

def fail (reason : String) (blocked : Bool) : State := { s with place := .failed reason blocked }

/-- The pump has stopped. -/
def stop (tunnel : Tunnel) (why : String) : State :=
  { s with core := { s.core with path := none }, place := .ended tunnel why }

def pump (p : Pump) : State := { s with place := .pumping p }

/-- What happens in the pump, where the loop is there. -/
def inPump (f : Pump → Option State) : Option State :=
  match s.place with
  | .pumping p => f p
  | _ => none

lemma inPump_eq_some {s : State} {f : Pump → Option State} {t : State} :
    s.inPump f = some t ↔ ∃ p, s.place = .pumping p ∧ f p = some t := by
  unfold inPump
  split
  · next p hp => simp [hp]
  · next hp =>
    constructor
    · exact nofun
    · rintro ⟨p, hp', -⟩
      exact absurd hp' (hp p)

end State

def isUp : Phase → Bool
  | .up _ => true
  | _ => false

/-- What happens at one step. -/
inductive Event
  -- from outside
  | reconnect
  | notify (source : Option IpAddr)
  | pass (d : Duration)
  -- the loop and its attempts
  | turn
  | h3Opened (quic settings connect : ℕ)
  | h3Failed (problem : String) (blocked : Bool)
  | h2Opened (tcp tls http2 connect : ℕ)
  | h2Failed (problem : String) (blocked : Bool)
  | notOpened
  | measured (carries : Option Bool)
  | judged (carried : ℕ)
  | lost
  -- the wait between attempts
  | waitAsked
  | waitLine
  | waited
  | wokenAsked
  | wokenLine
  -- the pump
  | pumpAsked
  | pumpLine
  | traffic (why : String)
  | adapterEnded
  | asked
  | pingDue
  | lineChanged
  | settled
  | answered (path : Option PathReading)
  | unanswered (why : String)
  | upgradeDue
  | upgradeOpened (quic settings connect : ℕ)
  | upgradeFailed

/-! ### Steps -/

/-- The number of the step being taken. -/
def State.tick (s : State) : ℕ := s.count + 1

/-- A round of the loop: a tunnel handed over is taken up, or another attempt begins. -/
def turn (cfg : Config) (s : State) : State :=
  match s.handed with
  | some tunnel => { s with handed := none, upgraded := true }.up tunnel
  | none =>
    let attempt : Attempt := match plan cfg.choice cfg.handshake s.parked with
      | .only .h2 => .h2
      | .only .h3 => .h3 false s.tick
      | .h3ThenH2 => .h3 true s.tick
    { s.publish (.connecting (s.failures + 1)) with
      upgraded := false
      place := .connecting attempt (s.now + CONNECT_TIMEOUT) }

/-- A tunnel that ended is judged by how long it lived and how little it carried back. -/
def judge (s : State) (tunnel : Tunnel) (why : String) (carried : ℕ) : State :=
  if cutShortLife (s.now.since s.openedAt) carried then
    let cutShort := s.cutShort + 1
    let evidence := decide (CUT_SHORT_RUN ≤ cutShort) || s.upgraded
    let s := { s with cutShort := cutShort }
    (if evidence && decide (tunnel.stages.carrier = .h3) then s.park tunnel.begun else s).fail why false
  else { s with cutShort := 0 }.fail why false

/-- There is no tunnel, and another attempt is coming. -/
def lose (s : State) (reason : String) (blocked : Bool) : State :=
  let retryIn := BACKOFF.getD (min s.failures (BACKOFF.length - 1)) 0
  { s.publish (.lost reason retryIn blocked) with
    failures := s.failures + 1
    place := .waiting (s.now + retryIn) none none }

/-- Whether an attempt made now would start with HTTP/3. -/
def http3WouldBeTried (cfg : Config) (s : State) : Bool :=
  decide (plan cfg.choice cfg.handshake s.parked = .h3ThenH2)

/-- HTTP/3 is tried beside the tunnel, or left for later. -/
def upgradeTry (cfg : Config) (s : State) : Upgrading :=
  if http3WouldBeTried cfg s then .trying s.tick (s.now + CONNECT_TIMEOUT)
  else .sleeping (s.now + UPGRADE_EVERY)

/-- Whether it is worth measuring again whether the tunnel carries IPv6. -/
def shouldProbeIpv6 (core : Core) : Bool := decide (core.v6 ≠ .doesNot)

/-- The pump of a tunnel, none of its futures polled yet. -/
def Pump.new (tunnel : Tunnel) (now : Instant) : Pump where
  tunnel := tunnel
  answering := .entering
  asked := none
  upgrading := if tunnel.stages.carrier = .h2 then .sleeping (now + UPGRADE_EVERY) else .never

/-- What an event does, where it can happen. -/
def act (cfg : Config) (s : State) : Event → Option State
  | .reconnect => some { s with
      core := s.core.reconnect
      notice := s.tick
      upCalls := if isUp s.core.phase then (s.core.reconnects + 1) :: s.upCalls else s.upCalls }
  | .notify source => some { s with
      line := s.line + 1
      source := source
      notice := if source = s.source then s.notice else s.tick }
  | .pass d => some { s with now := s.now + d }
  | .turn => match s.place with
    | .top => some (turn cfg s)
    | _ => none
  | .h3Opened quic settings connect => match s.place with
    | .connecting (.h3 _ _) _ => some (s.up ⟨.h3 quic settings connect, s.tick⟩)
    | _ => none
  | .h3Failed problem blocked => match s.place with
    | .connecting (.h3 true begun) due => some { s.park begun with place := .connecting .h2 due }
    | .connecting (.h3 false _) _ => some (s.fail problem blocked)
    | _ => none
  | .h2Opened tcp tls http2 connect => match s.place with
    | .connecting .h2 _ => some (s.up ⟨.h2 tcp tls http2 connect, s.tick⟩)
    | _ => none
  | .h2Failed problem blocked => match s.place with
    | .connecting .h2 _ => some (s.fail problem blocked)
    | _ => none
  | .notOpened => match s.place with
    | .connecting _ due =>
      if due ≤ s.now then some (s.fail "the tunnel did not open within 20 s" false) else none
    | _ => none
  | .measured carries => match s.place, carries with
    | .opened tunnel, none => some (s.pump (.new tunnel s.now))
    | .opened tunnel, some carries =>
      if shouldProbeIpv6 s.core then
        some ({ s with core := s.core.setCarriesIpv6 carries }.pump (.new tunnel s.now))
      else none
    | _, _ => none
  | .judged carried => match s.place with
    | .ended tunnel why => some (judge s tunnel why carried)
    | _ => none
  | .lost => match s.place with
    | .failed reason blocked => some (lose s reason blocked)
    | _ => none
  | .waitAsked => match s.place with
    | .waiting due none line => some { s with place := .waiting due (some s.core.reconnects) line }
    | _ => none
  | .waitLine => match s.place with
    | .waiting due asked none => some { s with place := .waiting due asked (some s.line) }
    | _ => none
  | .waited => match s.place with
    | .waiting due _ _ => if due ≤ s.now then some { s with place := .top } else none
    | _ => none
  | .wokenAsked => match s.place with
    | .waiting _ (some seen) _ =>
      if seen < s.core.reconnects then some { s.unpark with place := .top } else none
    | _ => none
  | .wokenLine => match s.place with
    | .waiting _ _ (some seen) =>
      if seen < s.line then some { s.lookAgain with place := .top } else none
    | _ => none
  | .pumpAsked => s.inPump fun p => match p.asked with
    | none => some (s.pump { p with asked := some s.core.reconnects })
    | some _ => none
  | .pumpLine => s.inPump fun p => match p.answering with
    | .entering => some (s.pump { p with answering := .listening s.line (s.now + PING_EVERY) })
    | _ => none
  | .traffic why => s.inPump fun p => some (s.stop p.tunnel why)
  | .adapterEnded => s.inPump fun p =>
    some ({ s with core := s.core.stop }.stop p.tunnel "the adapter stopped delivering packets")
  | .asked => s.inPump fun p => match p.asked with
    | some seen =>
      if seen < s.core.reconnects then some (s.unpark.stop p.tunnel "a reconnect was asked for")
      else none
    | none => none
  | .pingDue => s.inPump fun p => match p.answering with
    | .listening _ due =>
      if due ≤ s.now then some (s.pump { p with answering := .probing (s.now + PING_TIMEOUT) })
      else none
    | _ => none
  | .lineChanged => s.inPump fun p => match p.answering with
    | .listening seen _ =>
      if seen < s.line then
        some (s.lookAgain.pump { p with answering := .settling (s.now + SETTLING) })
      else none
    | _ => none
  | .settled => s.inPump fun p => match p.answering with
    | .settling due =>
      if due ≤ s.now then some (s.pump { p with answering := .probing (s.now + PING_TIMEOUT) })
      else none
    | _ => none
  | .answered path => s.inPump fun p => match p.answering with
    | .probing _ =>
      some ({ s with core := { s.core with path := path.or s.core.path } }.pump
        { p with answering := .entering })
    | _ => none
  | .unanswered why => s.inPump fun p => match p.answering with
    | .probing _ => some (s.stop p.tunnel why)
    | _ => none
  | .upgradeDue => s.inPump fun p => match p.upgrading with
    | .sleeping due =>
      if due ≤ s.now then some (s.pump { p with upgrading := upgradeTry cfg s }) else none
    | _ => none
  | .upgradeOpened quic settings connect => s.inPump fun p => match p.upgrading with
    | .trying _ _ => some { s with
        core := { s.core with path := none }
        handed := some ⟨.h3 quic settings connect, s.tick⟩
        place := .top }
    | _ => none
  | .upgradeFailed => s.inPump fun p => match p.upgrading with
    | .trying begun _ =>
      some ((s.park begun).pump { p with upgrading := .sleeping (s.now + UPGRADE_EVERY) })
    | _ => none

/-- What can happen, where it can, and what it does. -/
inductive Acts (cfg : Config) (s : State) : Event → State → Prop
  | reconnect : Acts cfg s .reconnect { s with
      core := s.core.reconnect
      notice := s.tick
      upCalls := if isUp s.core.phase then (s.core.reconnects + 1) :: s.upCalls else s.upCalls }
  | notify (source : Option IpAddr) : Acts cfg s (.notify source) { s with
      line := s.line + 1
      source := source
      notice := if source = s.source then s.notice else s.tick }
  | pass (d : Duration) : Acts cfg s (.pass d) { s with now := s.now + d }
  | turn (hp : s.place = .top) : Acts cfg s .turn (Engine.turn cfg s)
  | h3Opened {thenH2 : Bool} {begun : ℕ} {due : Instant} {quic settings connect : ℕ}
      (hp : s.place = .connecting (.h3 thenH2 begun) due) :
      Acts cfg s (.h3Opened quic settings connect) (s.up ⟨.h3 quic settings connect, s.tick⟩)
  | h3GivesWay {begun : ℕ} {due : Instant} {problem : String} {blocked : Bool}
      (hp : s.place = .connecting (.h3 true begun) due) :
      Acts cfg s (.h3Failed problem blocked) { s.park begun with place := .connecting .h2 due }
  | h3Failed {begun : ℕ} {due : Instant} {problem : String} {blocked : Bool}
      (hp : s.place = .connecting (.h3 false begun) due) :
      Acts cfg s (.h3Failed problem blocked) (s.fail problem blocked)
  | h2Opened {due : Instant} {tcp tls http2 connect : ℕ} (hp : s.place = .connecting .h2 due) :
      Acts cfg s (.h2Opened tcp tls http2 connect) (s.up ⟨.h2 tcp tls http2 connect, s.tick⟩)
  | h2Failed {due : Instant} {problem : String} {blocked : Bool}
      (hp : s.place = .connecting .h2 due) :
      Acts cfg s (.h2Failed problem blocked) (s.fail problem blocked)
  | notOpened {attempt : Attempt} {due : Instant} (hp : s.place = .connecting attempt due)
      (hdue : due ≤ s.now) :
      Acts cfg s .notOpened (s.fail "the tunnel did not open within 20 s" false)
  | entered {tunnel : Tunnel} (hp : s.place = .opened tunnel) :
      Acts cfg s (.measured none) (s.pump (.new tunnel s.now))
  | measured {tunnel : Tunnel} {carries : Bool} (hp : s.place = .opened tunnel)
      (hprobe : shouldProbeIpv6 s.core = true) : Acts cfg s (.measured (some carries))
        ({ s with core := s.core.setCarriesIpv6 carries }.pump (.new tunnel s.now))
  | judged {tunnel : Tunnel} {why : String} {carried : ℕ} (hp : s.place = .ended tunnel why) :
      Acts cfg s (.judged carried) (judge s tunnel why carried)
  | lost {reason : String} {blocked : Bool} (hp : s.place = .failed reason blocked) :
      Acts cfg s .lost (lose s reason blocked)
  | waitAsked {due : Instant} {line : Option ℕ} (hp : s.place = .waiting due none line) :
      Acts cfg s .waitAsked { s with place := .waiting due (some s.core.reconnects) line }
  | waitLine {due : Instant} {asked : Option ℕ} (hp : s.place = .waiting due asked none) :
      Acts cfg s .waitLine { s with place := .waiting due asked (some s.line) }
  | waited {due : Instant} {asked line : Option ℕ} (hp : s.place = .waiting due asked line)
      (hdue : due ≤ s.now) : Acts cfg s .waited { s with place := .top }
  | wokenAsked {due : Instant} {seen : ℕ} {line : Option ℕ}
      (hp : s.place = .waiting due (some seen) line) (hlt : seen < s.core.reconnects) :
      Acts cfg s .wokenAsked { s.unpark with place := .top }
  | wokenLine {due : Instant} {asked : Option ℕ} {seen : ℕ}
      (hp : s.place = .waiting due asked (some seen)) (hlt : seen < s.line) :
      Acts cfg s .wokenLine { s.lookAgain with place := .top }
  | pumpAsked {p : Pump} (hp : s.place = .pumping p) (ha : p.asked = none) :
      Acts cfg s .pumpAsked (s.pump { p with asked := some s.core.reconnects })
  | pumpLine {p : Pump} (hp : s.place = .pumping p) (ha : p.answering = .entering) :
      Acts cfg s .pumpLine
        (s.pump { p with answering := .listening s.line (s.now + PING_EVERY) })
  | traffic {p : Pump} {why : String} (hp : s.place = .pumping p) :
      Acts cfg s (.traffic why) (s.stop p.tunnel why)
  | adapterEnded {p : Pump} (hp : s.place = .pumping p) : Acts cfg s .adapterEnded
      ({ s with core := s.core.stop }.stop p.tunnel "the adapter stopped delivering packets")
  | asked {p : Pump} {seen : ℕ} (hp : s.place = .pumping p) (ha : p.asked = some seen)
      (hlt : seen < s.core.reconnects) :
      Acts cfg s .asked (s.unpark.stop p.tunnel "a reconnect was asked for")
  | pingDue {p : Pump} {seen : ℕ} {due : Instant} (hp : s.place = .pumping p)
      (ha : p.answering = .listening seen due) (hdue : due ≤ s.now) :
      Acts cfg s .pingDue (s.pump { p with answering := .probing (s.now + PING_TIMEOUT) })
  | lineChanged {p : Pump} {seen : ℕ} {due : Instant} (hp : s.place = .pumping p)
      (ha : p.answering = .listening seen due) (hlt : seen < s.line) :
      Acts cfg s .lineChanged
        (s.lookAgain.pump { p with answering := .settling (s.now + SETTLING) })
  | settled {p : Pump} {due : Instant} (hp : s.place = .pumping p)
      (ha : p.answering = .settling due) (hdue : due ≤ s.now) :
      Acts cfg s .settled (s.pump { p with answering := .probing (s.now + PING_TIMEOUT) })
  | answered {p : Pump} {due : Instant} {path : Option PathReading} (hp : s.place = .pumping p)
      (ha : p.answering = .probing due) : Acts cfg s (.answered path)
        ({ s with core := { s.core with path := path.or s.core.path } }.pump
          { p with answering := .entering })
  | unanswered {p : Pump} {due : Instant} {why : String} (hp : s.place = .pumping p)
      (ha : p.answering = .probing due) : Acts cfg s (.unanswered why) (s.stop p.tunnel why)
  | upgradeDue {p : Pump} {due : Instant} (hp : s.place = .pumping p)
      (hu : p.upgrading = .sleeping due) (hdue : due ≤ s.now) :
      Acts cfg s .upgradeDue (s.pump { p with upgrading := upgradeTry cfg s })
  | upgradeOpened {p : Pump} {begun : ℕ} {due : Instant} {quic settings connect : ℕ}
      (hp : s.place = .pumping p) (hu : p.upgrading = .trying begun due) :
      Acts cfg s (.upgradeOpened quic settings connect) { s with
        core := { s.core with path := none }
        handed := some ⟨.h3 quic settings connect, s.tick⟩
        place := .top }
  | upgradeFailed {p : Pump} {begun : ℕ} {due : Instant} (hp : s.place = .pumping p)
      (hu : p.upgrading = .trying begun due) : Acts cfg s .upgradeFailed
        ((s.park begun).pump { p with upgrading := .sleeping (s.now + UPGRADE_EVERY) })

/-- **What a step does is one of these**, with what it waits for to happen. -/
lemma act_acts {cfg : Config} {s s' : State} {e : Event} (h : act cfg s e = some s') :
    Acts cfg s e s' := by
  cases e with
  | reconnect =>
    cases h
    exact .reconnect
  | notify source =>
    cases h
    exact .notify source
  | pass d =>
    cases h
    exact .pass d
  | turn =>
    simp only [act] at h
    split at h
    · next hp =>
      cases h
      exact .turn hp
    · cases h
  | h3Opened =>
    simp only [act] at h
    split at h
    · next hp =>
      cases h
      exact .h3Opened hp
    · cases h
  | h3Failed =>
    simp only [act] at h
    split at h
    · next hp =>
      cases h
      exact .h3GivesWay hp
    · next hp =>
      cases h
      exact .h3Failed hp
    · cases h
  | h2Opened =>
    simp only [act] at h
    split at h
    · next hp =>
      cases h
      exact .h2Opened hp
    · cases h
  | h2Failed =>
    simp only [act] at h
    split at h
    · next hp =>
      cases h
      exact .h2Failed hp
    · cases h
  | notOpened =>
    simp only [act] at h
    split at h
    · next hp =>
      split_ifs at h with hdue
      cases h
      exact .notOpened hp hdue
    · cases h
  | measured =>
    simp only [act] at h
    split at h
    · next hp =>
      cases h
      exact .entered hp
    · next hp =>
      split_ifs at h with hprobe
      cases h
      exact .measured hp hprobe
    · cases h
  | judged =>
    simp only [act] at h
    split at h
    · next hp =>
      cases h
      exact .judged hp
    · cases h
  | lost =>
    simp only [act] at h
    split at h
    · next hp =>
      cases h
      exact .lost hp
    · cases h
  | waitAsked =>
    simp only [act] at h
    split at h
    · next hp =>
      cases h
      exact .waitAsked hp
    · cases h
  | waitLine =>
    simp only [act] at h
    split at h
    · next hp =>
      cases h
      exact .waitLine hp
    · cases h
  | waited =>
    simp only [act] at h
    split at h
    · next hp =>
      split_ifs at h with hdue
      cases h
      exact .waited hp hdue
    · cases h
  | wokenAsked =>
    simp only [act] at h
    split at h
    · next hp =>
      split_ifs at h with hlt
      cases h
      exact .wokenAsked hp hlt
    · cases h
  | wokenLine =>
    simp only [act] at h
    split at h
    · next hp =>
      split_ifs at h with hlt
      cases h
      exact .wokenLine hp hlt
    · cases h
  | pumpAsked =>
    obtain ⟨p, hp, h⟩ := State.inPump_eq_some.1 h
    split at h
    · next ha =>
      cases h
      exact .pumpAsked hp ha
    · cases h
  | pumpLine =>
    obtain ⟨p, hp, h⟩ := State.inPump_eq_some.1 h
    split at h
    · next ha =>
      cases h
      exact .pumpLine hp ha
    · cases h
  | traffic =>
    obtain ⟨p, hp, h⟩ := State.inPump_eq_some.1 h
    cases h
    exact .traffic hp
  | adapterEnded =>
    obtain ⟨p, hp, h⟩ := State.inPump_eq_some.1 h
    cases h
    exact .adapterEnded hp
  | asked =>
    obtain ⟨p, hp, h⟩ := State.inPump_eq_some.1 h
    split at h
    · next ha =>
      split_ifs at h with hlt
      cases h
      exact .asked hp ha hlt
    · cases h
  | pingDue =>
    obtain ⟨p, hp, h⟩ := State.inPump_eq_some.1 h
    split at h
    · next ha =>
      split_ifs at h with hdue
      cases h
      exact .pingDue hp ha hdue
    · cases h
  | lineChanged =>
    obtain ⟨p, hp, h⟩ := State.inPump_eq_some.1 h
    split at h
    · next ha =>
      split_ifs at h with hlt
      cases h
      exact .lineChanged hp ha hlt
    · cases h
  | settled =>
    obtain ⟨p, hp, h⟩ := State.inPump_eq_some.1 h
    split at h
    · next ha =>
      split_ifs at h with hdue
      cases h
      exact .settled hp ha hdue
    · cases h
  | answered =>
    obtain ⟨p, hp, h⟩ := State.inPump_eq_some.1 h
    split at h
    · next ha =>
      cases h
      exact .answered hp ha
    · cases h
  | unanswered =>
    obtain ⟨p, hp, h⟩ := State.inPump_eq_some.1 h
    split at h
    · next ha =>
      cases h
      exact .unanswered hp ha
    · cases h
  | upgradeDue =>
    obtain ⟨p, hp, h⟩ := State.inPump_eq_some.1 h
    split at h
    · next hu =>
      split_ifs at h with hdue
      cases h
      exact .upgradeDue hp hu hdue
    · cases h
  | upgradeOpened =>
    obtain ⟨p, hp, h⟩ := State.inPump_eq_some.1 h
    split at h
    · next hu =>
      cases h
      exact .upgradeOpened hp hu
    · cases h
  | upgradeFailed =>
    obtain ⟨p, hp, h⟩ := State.inPump_eq_some.1 h
    split at h
    · next hu =>
      cases h
      exact .upgradeFailed hp hu
    · cases h

def step (cfg : Config) (s : State) (e : Event) : Option State :=
  (act cfg s e).map fun s' => { s' with count := s.tick }

/-- The engine as it starts on a core: nothing parked, no tunnel yet. -/
def start (core : Core) (line : ℕ) (now : Instant) (endpoint source : Option IpAddr) : State where
  core := core
  line := line
  parking := .unpark
  now := now
  source := source
  failures := 0
  cutShort := 0
  upgraded := false
  handed := none
  endpointLine := ⟨endpoint, endpoint.bind fun _ => source⟩
  openedAt := now
  place := .top
  count := 0
  notice := 0
  parkedBy := 0
  upCalls := []

end Masqr.Engine

import Mathlib
import Masqr.Dns.Lease
import Masqr.Tun.Routes

/-!
State shared between the parts of the core: what the engine is doing, what is asked for and
leased, and the prefixes routed on account of both.
-/

namespace Masqr

open Masqr.Lib Masqr.Dns Masqr.Tun

/-- Packets and bytes in one direction. -/
structure Counter where
  packets : ℕ
  bytes : ℕ

structure Counters where
  out : Counter
  back : Counter

/-- The path under an HTTP/3 tunnel as it was last reported. -/
structure PathReading where
  rtt : Duration
  cwnd : ℕ
  sent : ℕ
  lost : ℕ
  datagrams : ℕ
  read : ℕ

inductive Carrier | h2 | h3
  deriving DecidableEq

def Carrier.name : Carrier → String
  | .h2 => "h2"
  | .h3 => "h3"

/-- How long each stage of bringing the tunnel up took, in milliseconds. -/
inductive Stages
  | h2 (tcp tls http2 connect : ℕ)
  | h3 (quic settings connect : ℕ)

def Stages.carrier : Stages → Carrier
  | .h2 .. => .h2
  | .h3 .. => .h3

def Stages.steps : Stages → List (String × ℕ)
  | .h2 tcp tls http2 connect => [("tcp", tcp), ("tls", tls), ("http2", http2), ("connect", connect)]
  | .h3 quic settings connect => [("quic", quic), ("settings", settings), ("connect", connect)]

/-- What the engine is doing. -/
inductive Phase
  | connecting (attempt : ℕ)
  | up (stages : Stages)
  | lost (reason : String) (retryIn : Duration) (blocked : Bool)

def Phase.name : Phase → String
  | .connecting _ => "connecting"
  | .up _ => "up"
  | .lost .. => "lost"

/-- What is known about whether the tunnel carries IPv6. -/
inductive Ipv6Support | unknown | carries | doesNot
  deriving DecidableEq

/-- The core's shared state. -/
structure Core where
  counters : Counters
  phase : Phase
  adapter : Adapter
  routes : Routes
  asked : Prefixes
  leases : Leases
  stopped : Bool
  reconnects : ℕ
  wantsV6 : Bool
  v6 : Ipv6Support
  path : Option PathReading

namespace Core

def new (adapter : Adapter) (now : Instant) : Core where
  counters := ⟨⟨0, 0⟩, ⟨0, 0⟩⟩
  phase := .connecting 1
  adapter := adapter
  routes := ⟨∅⟩
  asked := ∅
  leases := .new now
  stopped := false
  reconnects := 0
  wantsV6 := false
  v6 := .unknown
  path := none

/-- The route to one address and to nothing else. -/
def hostRoute (address : IpAddr) : Prefix := (address, if address.isIpv4 then 32 else 128)

/-- Whether a prefix of the newer family may be installed. -/
def routesIpv6 (c : Core) : Bool := c.wantsV6 && decide (c.v6 = .carries)

/-- What was asked for and a host route per leased address, the newer family left out where it
is not carried. -/
def unionOf (carriesV6 : Bool) (asked : Prefixes) (addresses : List IpAddr) : Prefixes :=
  (addresses.foldl (fun wanted address => wanted.insert (hostRoute address)) asked).filter
    fun p => carriesV6 || p.1.isIpv4

/-- Everything that should be routed. -/
def union (c : Core) : Prefixes := unionOf c.routesIpv6 c.asked c.leases.addresses

/-- Make the routing table agree with what is asked for and leased. -/
def installUnion (c : Core) : Except TunError Change × Core :=
  let r := c.routes.apply c.adapter.table c.union
  (r.1, { c with routes := r.2 })

/-- Replace what the application asks for, and make the routing table agree. -/
def setRoutes (c : Core) (wanted : Prefixes) : Except TunError Change × Core :=
  installUnion { c with asked := wanted }

def refreshRoutes (c : Core) : Except TunError Change × Core := c.installUnion

def setWantsIpv6 (c : Core) (wanted : Bool) : Core := { c with wantsV6 := wanted }

/-- Record what a measurement found, and make the routing table agree with it. -/
def setCarriesIpv6 (c : Core) (carries : Bool) : Core :=
  let state : Ipv6Support := if carries then .carries else .doesNot
  if c.v6 = state then c else ({ c with v6 := state } : Core).refreshRoutes.2

/-- How many prefixes went in, none where the table refused one. -/
def routesChanged (c : Core) : ℕ × Core :=
  let r := c.refreshRoutes
  (match r.1 with
    | .ok change => change.added.length
    | .error _ => 0, r.2)

def reconnect (c : Core) : Core := { c with reconnects := c.reconnects + 1 }

def stop (c : Core) : Core := { c with stopped := true }

/-! ### Calls that change what is routed -/

/-- One call on the core, with what it is given. -/
inductive Call
  | setRoutes (wanted : Prefixes)
  | routes (ipv6 : Bool) (wanted : Prefixes)
  | setCarriesIpv6 (carries : Bool)
  | record (walk : Walk (IpAddr × Lease)) (name : String) (records : List Record) (now : Instant)
  | expire (now : Instant)
  | touch (address : IpAddr) (now : Instant)
  | routesChanged

/-- The leases changed, and the table is made to agree where that is said to be needed. -/
def relet (c : Core) (r : Bool × Leases) : Core :=
  let c := { c with leases := r.2 }
  if r.1 then c.routesChanged.2 else c

/-- A call with nothing else going on. -/
def perform (c : Core) : Call → Core
  | .setRoutes wanted => (c.setRoutes wanted).2
  | .routes ipv6 wanted => ((c.setWantsIpv6 ipv6).setRoutes wanted).2
  | .setCarriesIpv6 carries => c.setCarriesIpv6 carries
  | .record walk name records now => c.relet (c.leases.record walk name records now)
  | .expire now => c.relet (c.leases.expire now)
  | .touch address now => { c with leases := c.leases.touch address now }
  | .routesChanged => c.routesChanged.2

/-! ### What should be routed -/

variable {c : Core} {p : Prefix}

lemma mem_hosts {asked : Prefixes} {addresses : List IpAddr} :
    p ∈ addresses.foldl (fun wanted address => wanted.insert (hostRoute address)) asked ↔
      p ∈ asked ∨ ∃ a ∈ addresses, p = hostRoute a := by
  induction addresses generalizing asked with
  | nil => simp
  | cons a addresses ih =>
    rw [List.foldl_cons, ih, Std.ExtTreeSet.mem_insert, Std.LawfulEqCmp.compare_eq_iff_eq,
      List.exists_mem_cons_iff, eq_comm, or_assoc, or_left_comm]

lemma mem_unionOf {carriesV6 : Bool} {asked : Prefixes} {addresses : List IpAddr} :
    p ∈ unionOf carriesV6 asked addresses ↔
      (p ∈ asked ∨ ∃ a ∈ addresses, p = hostRoute a) ∧ (p.1.isIpv4 = true ∨ carriesV6 = true) := by
  unfold unionOf
  rw [Std.ExtTreeSet.mem_filter, ← mem_hosts]
  constructor
  · rintro ⟨h, hf⟩
    rw [Std.ExtTreeSet.get_eq] at hf
    exact ⟨h, by simpa [or_comm] using hf⟩
  · rintro ⟨h, hf⟩
    refine ⟨h, ?_⟩
    rw [Std.ExtTreeSet.get_eq]
    simpa [or_comm] using hf

lemma mem_union : p ∈ c.union ↔ (p ∈ c.asked ∨ ∃ a ∈ c.leases.addresses, p = hostRoute a) ∧
    (p.1.isIpv4 = true ∨ (c.wantsV6 = true ∧ c.v6 = .carries)) := by
  simp [union, mem_unionOf, routesIpv6]

/-- The routing table agrees with what is asked for and leased. -/
def Agrees (c : Core) : Prop := c.routes.installed = c.union

lemma new_agrees (adapter : Adapter) (now : Instant) : (new adapter now).Agrees := by
  refine Std.ExtTreeSet.ext_mem fun p => ?_
  simp [mem_union, new, Leases.new]

/-- The rows of the routing table are never refused. -/
def Accepted (c : Core) : Prop := c.adapter.table.Accepts

lemma union_congr {c d : Core} (hw : d.wantsV6 = c.wantsV6) (hv : d.v6 = c.v6)
    (ha : ∀ p, p ∈ d.asked ↔ p ∈ c.asked) (hl : ∀ a, a ∈ d.leases.held ↔ a ∈ c.leases.held) :
    d.union = c.union := by
  refine Std.ExtTreeSet.ext_mem fun p => ?_
  simp only [mem_union, Leases.mem_addresses, hw, hv, ha, hl]

lemma installUnion_accepted (h : c.Accepted) :
    c.installUnion.2 = { c with routes := ⟨c.union⟩ } := by
  unfold installUnion
  dsimp only
  rw [Routes.apply_accepted h]

lemma installUnion_agrees (h : c.Accepted) : c.installUnion.2.Agrees := by
  rw [installUnion_accepted h]
  rfl

lemma installUnion_accepted_again (h : c.Accepted) : c.installUnion.2.Accepted := by
  rw [installUnion_accepted h]
  exact h

/-! ### Calls keep the table in agreement -/

lemma relet_agrees {r : Bool × Leases} (h : c.Accepted) (ha : c.Agrees)
    (hr : r.1 = false → ∀ a, a ∈ r.2.held ↔ a ∈ c.leases.held) :
    (c.relet r).Accepted ∧ (c.relet r).Agrees := by
  unfold relet
  dsimp only
  split
  · exact ⟨installUnion_accepted_again h, installUnion_agrees h⟩
  · next hf =>
    refine ⟨h, ?_⟩
    have hu : ({ c with leases := r.2 } : Core).union = c.union :=
      union_congr rfl rfl (fun _ => Iff.rfl) (hr (Bool.not_eq_true _ ▸ hf))
    exact Eq.trans ha hu.symm

/-- **Every call keeps the routing table in agreement.** -/
theorem perform_agrees (h : c.Accepted) (ha : c.Agrees) (call : Call) :
    (c.perform call).Accepted ∧ (c.perform call).Agrees := by
  have hinstall {d : Core} (hd : d.Accepted) : d.installUnion.2.Accepted ∧ d.installUnion.2.Agrees :=
    ⟨installUnion_accepted_again hd, installUnion_agrees hd⟩
  cases call with
  | setRoutes wanted => exact hinstall h
  | routes ipv6 wanted => exact hinstall h
  | setCarriesIpv6 carries =>
    simp only [perform, setCarriesIpv6]
    split_ifs <;> first | exact ⟨h, ha⟩ | exact hinstall h
  | record walk name records now =>
    exact relet_agrees h ha fun hf a => (Leases.record_false hf).1
  | expire now => exact relet_agrees h ha fun hf a => by rw [Leases.expire_false hf]
  | touch address now =>
    have hu : (c.perform (.touch address now)).union = c.union :=
      union_congr rfl rfl (fun _ => Iff.rfl) fun _ => Leases.mem_touch
    exact ⟨h, Eq.trans ha hu.symm⟩
  | routesChanged => exact hinstall h

/-- **Where the table agrees, an address of the older family is routed exactly when its host
route is asked for or it is leased.** -/
theorem hostRoute_installed (ha : c.Agrees) {a : IpAddr} (h4 : a.isIpv4 = true) :
    hostRoute a ∈ c.routes.installed ↔ hostRoute a ∈ c.asked ∨ a ∈ c.leases.held := by
  rw [show c.routes.installed = c.union from ha, mem_union]
  simp [h4, hostRoute]

end Core

end Masqr

import Mathlib
import Masqr.Dns.Server
import Masqr.Text

/-!
The control interface: what a request does to the core, and the reply to it.
-/

namespace Masqr

open Masqr.Lib Masqr.Dns Masqr.Tun

/-- How much is said, from least to most. -/
inductive Level | error | warn | notice | info | debug
  deriving DecidableEq

def Level.word : Level → String
  | .error => "ERROR"
  | .warn => "WARN"
  | .notice => "NOTICE"
  | .info => "INFO"
  | .debug => "DEBUG"

def Level.parse (text : String) : Option Level :=
  match toAsciiLowercase (trim text) with
  | "error" => some .error
  | "warn" | "warning" => some .warn
  | "notice" => some .notice
  | "info" => some .info
  | "debug" | "trace" => some .debug
  | _ => none

namespace Control

/-- The requests but for the one about the machine's names. -/
inductive Request
  | status
  | routes (set : List String) (ipv6 : Bool)
  | dns (policy : PolicyInput)
  | log (level : String)
  | sni (name : String)
  | reconnect
  | stop

/-- What the status says of the tunnel. -/
inductive Tunnel
  | connecting (state : String) (attempt : ℕ)
  | up (state transport : String) (stages : List (String × ℕ)) (path : Option PathReading)
  | lost (state reason : String) (retryInMs : ℕ) (blocked : Bool)

structure Status where
  tunnel : Tunnel
  routes : List String
  out : Counter
  back : Counter
  level : String
  ipv6 : String
  stats : Stats
  leases : ℕ

inductive Reply
  | refusal (error : String)
  | status (status : Status)
  | routes (added removed : List String)
  | dns (report : InstallReport)
  | log (level : String)
  | done

/-- What the reply carries under `ok`. -/
def Reply.ok : Reply → Bool
  | .refusal _ => false
  | _ => true

/-- What the requests are answered from: the core with its resolver, and what is kept beside it
for the whole process. -/
structure Process (reqwest : Reqwest) where
  machine : Machine reqwest
  level : Level
  frontedName : Option String

/-- What is not part of this repository and decides an answer: what TLS takes for a name, and the
order in which a map is walked. -/
structure Env where
  isDnsName : String → Bool
  walk : Walk (String × Resolver)

def prefixes (written : List String) : Except String Prefixes :=
  written.foldlM (fun set one => (parsePrefix one).map set.insert) ∅

variable {reqwest : Reqwest}

def tunnel (c : Core) : Tunnel :=
  match c.phase with
  | .connecting attempt => .connecting c.phase.name attempt
  | .up stages =>
    .up c.phase.name stages.carrier.name (stages.steps.map fun s => (s.1 ++ "_ms", s.2)) c.path
  | .lost reason retryIn blocked => .lost c.phase.name reason retryIn.asMillis blocked

def ipv6Word : Ipv6Support → String
  | .carries => "carried"
  | .doesNot => "not carried"
  | .unknown => "not measured yet"

def status (p : Process reqwest) : Status where
  tunnel := tunnel p.machine.core
  routes := p.machine.core.routes.installed.toList.map Prefix.text
  out := p.machine.core.counters.out
  back := p.machine.core.counters.back
  level := toAsciiLowercase p.level.word
  ipv6 := ipv6Word p.machine.core.v6
  stats := p.machine.server.stats
  leases := p.machine.core.leases.len

/-- The routed set made exactly what is asked for. -/
def routes (p : Process reqwest) (wanted : Prefixes) (ipv6 : Bool) : Reply × Process reqwest :=
  let r := (p.machine.core.setWantsIpv6 ipv6).setRoutes wanted
  let p := { p with machine := { p.machine with core := r.2 } }
  match r.1 with
  | .error problem => (.refusal problem.text, p)
  | .ok change => (.routes (change.added.map Prefix.text) (change.removed.map Prefix.text), p)

/-- Change the name the `fronted` strategy uses; refused where it is not a name. -/
def setFrontedName (env : Env) (p : Process reqwest) (name : String) :
    Except String (Process reqwest) :=
  if env.isDnsName name then .ok { p with frontedName := some name }
  else .error s!"`{name}` is not a DNS name"

def answer (env : Env) (p : Process reqwest) : Request → Reply × Process reqwest
  | .status => (.status (status p), p)
  | .routes set ipv6 =>
    match prefixes set with
    | .error problem => (.refusal problem, p)
    | .ok wanted => routes p wanted ipv6
  | .dns policy =>
    let r := p.machine.install env.walk policy
    let p := { p with machine := r.2 }
    match r.1 with
    | .error problem => (.refusal problem.text, p)
    | .ok report => (.dns report, p)
  | .log level =>
    match Level.parse level with
    | none =>
      (.refusal s!"`{level}` is not a level; it is one of error, warn, notice, info, debug", p)
    | some level => (.log (toAsciiLowercase level.word), { p with level := level })
  | .sni name =>
    match setFrontedName env p name with
    | .error problem => (.refusal problem, p)
    | .ok p => (.done, p)
  | .reconnect => (.done, { p with machine.core := p.machine.core.reconnect })
  | .stop => (.done, { p with machine.core := p.machine.core.stop })

/-! ### Refusals -/

/-- What a refusal is to leave alone: the asked set, whether IPv6 is wanted, the installed set,
the installed policy, the level, and the fronted name. -/
structure Unchanged (p p' : Process reqwest) : Prop where
  asked : p'.machine.core.asked = p.machine.core.asked
  wantsV6 : p'.machine.core.wantsV6 = p.machine.core.wantsV6
  installed : p'.machine.core.routes.installed = p.machine.core.routes.installed
  policy : p'.machine.server.installed = p.machine.server.installed
  level : p'.level = p.level
  frontedName : p'.frontedName = p.frontedName

lemma Unchanged.refl (p : Process reqwest) : Unchanged p p := ⟨rfl, rfl, rfl, rfl, rfl, rfl⟩

/-- What the core is to route once this is asked for. -/
def asking (c : Core) (wanted : Prefixes) (ipv6 : Bool) : Core :=
  { c with wantsV6 := ipv6, asked := wanted }

/-- A row that has to be moved for this to be routed, and what the table says to it. -/
def RowSaid (c : Core) (wanted : Prefixes) (ipv6 : Bool) (said : Except TunError Unit → Prop) :
    Prop :=
  RowMoves c.adapter.table c.routes (asking c wanted ipv6).union said

/-- A request for routes goes half-way: its prefixes are read, a row that has to be moved is
refused, and it asks for something new or another row is moved. -/
def HalfWay (p : Process reqwest) (request : Request) : Prop :=
  ∃ set ipv6 wanted, request = .routes set ipv6 ∧ prefixes set = .ok wanted ∧
    RowSaid p.machine.core wanted ipv6 (· ≠ .ok ()) ∧
    (wanted ≠ p.machine.core.asked ∨ ipv6 ≠ p.machine.core.wantsV6 ∨
      RowSaid p.machine.core wanted ipv6 (· = .ok ()))

variable {p : Process reqwest} {wanted : Prefixes} {ipv6 : Bool}

lemma routes_refused_iff : (routes p wanted ipv6).1.ok = false ↔
    RowSaid p.machine.core wanted ipv6 (· ≠ .ok ()) := by
  unfold RowSaid
  rw [← Routes.apply_error_iff]
  have hr : ((p.machine.core.setWantsIpv6 ipv6).setRoutes wanted).1 =
      (p.machine.core.routes.apply p.machine.core.adapter.table
        (asking p.machine.core wanted ipv6).union).1 := rfl
  rw [← hr, routes]
  dsimp only
  cases ((p.machine.core.setWantsIpv6 ipv6).setRoutes wanted).1 <;> simp [Reply.ok]

lemma routes_unchanged_iff : Unchanged p (routes p wanted ipv6).2 ↔
    wanted = p.machine.core.asked ∧ ipv6 = p.machine.core.wantsV6 ∧
      ¬RowSaid p.machine.core wanted ipv6 (· = .ok ()) := by
  have hp : (routes p wanted ipv6).2 = { p with machine := { p.machine with
      core := ((p.machine.core.setWantsIpv6 ipv6).setRoutes wanted).2 } } := by
    unfold routes
    dsimp only
    split <;> rfl
  rw [hp, RowSaid, ← Routes.apply_unchanged_iff]
  exact ⟨fun h => ⟨h.asked, h.wantsV6, h.installed⟩, fun h => ⟨h.1, h.2.1, h.2.2, rfl, rfl, rfl⟩⟩

/-- **A refusal means nothing changed, but for a request for routes that goes half-way.** -/
theorem refusal_unchanged_iff (env : Env) (p : Process reqwest) (request : Request) :
    ((answer env p request).1.ok = false → Unchanged p (answer env p request).2) ↔
      ¬HalfWay p request := by
  have hnot (hr : ∀ set ipv6, request ≠ .routes set ipv6) : ¬HalfWay p request :=
    fun ⟨set, ipv6, _, h, _⟩ => hr set ipv6 h
  cases request with
  | routes set ipv6 =>
    simp only [answer]
    cases hs : prefixes set with
    | error problem =>
      refine iff_of_true (fun _ => .refl p) ?_
      rintro ⟨set', ipv6', wanted, he, hw, -⟩
      cases he
      rw [hs] at hw
      cases hw
    | ok wanted =>
      have hhalf : HalfWay p (.routes set ipv6) ↔
          RowSaid p.machine.core wanted ipv6 (· ≠ .ok ()) ∧
            (wanted ≠ p.machine.core.asked ∨ ipv6 ≠ p.machine.core.wantsV6 ∨
              RowSaid p.machine.core wanted ipv6 (· = .ok ())) := by
        constructor
        · rintro ⟨set', ipv6', wanted', he, hw, h⟩
          cases he
          rw [hs] at hw
          cases hw
          exact h
        · exact fun h => ⟨set, ipv6, wanted, rfl, hs, h⟩
      rw [hhalf, routes_refused_iff, routes_unchanged_iff]
      tauto
  | status => exact iff_of_true nofun (hnot nofun)
  | dns policy =>
    refine iff_of_true (fun h => ?_) (hnot nofun)
    simp only [answer, Machine.install, Server.install] at h ⊢
    cases hp : p.machine.server.prepare env.walk policy with
    | error problem => exact .refl p
    | ok installed => rw [hp] at h; cases h
  | log level =>
    refine iff_of_true (fun h => ?_) (hnot nofun)
    simp only [answer] at h ⊢
    split at h
    · exact .refl p
    · cases h
  | sni name =>
    refine iff_of_true (fun h => ?_) (hnot nofun)
    simp only [answer] at h ⊢
    split at h
    · exact .refl p
    · cases h
  | reconnect => exact iff_of_true nofun (hnot nofun)
  | stop => exact iff_of_true nofun (hnot nofun)

/-- A core whose routing table refuses the row for `2.2.2.2`. -/
def refusing : Process noHttps :=
  ⟨⟨.new ⟨fun p => if p = (.v4 0x02020202, 32) then 5 else 0, fun _ => 0⟩ 0, .new none⟩, .info, none⟩

/-- The request is refused on account of one row; the other is installed, both are asked for from
then on, and so is IPv6. -/
theorem refusal_half_way :
    let r := answer ⟨fun _ => true, .asHeld⟩ refusing (.routes ["1.1.1.1", "2.2.2.2"] true)
    r.1.ok = false ∧ r.2.machine.core.routes.installed = {(.v4 0x01010101, 32)} ∧
      r.2.machine.core.asked = {(.v4 0x01010101, 32), (.v4 0x02020202, 32)} ∧
      r.2.machine.core.wantsV6 = true ∧ ¬Unchanged refusing r.2 := by
  have hwants : (answer ⟨fun _ => true, .asHeld⟩ refusing
      (.routes ["1.1.1.1", "2.2.2.2"] true)).2.machine.core.wantsV6 = true := by decide +kernel
  refine ⟨by decide +kernel, by decide +kernel, by decide +kernel, hwants, fun h => ?_⟩
  have hold := hwants.symm.trans h.wantsV6
  cases hold

end Control

end Masqr

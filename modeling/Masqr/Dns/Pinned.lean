import Mathlib
import Masqr.Dns.Server

/-!
The resolvers reached through the tunnel, and whether they are routed into it.
-/

namespace Masqr.Dns

open Masqr.Lib

namespace Machine

variable {reqwest : Reqwest}

/-- The IPv4 addresses of the resolvers the policy in force declares to be reached through the
tunnel. -/
def tunnelled (m : Machine reqwest) : List IpAddr :=
  match m.server.installed with
  | none => []
  | some installed => installed.policy.tunnelledResolvers.filter IpAddr.isIpv4

/-- Each of them has its host route installed. -/
def Pinned (m : Machine reqwest) : Prop :=
  ∀ a ∈ m.tunnelled, Core.hostRoute a ∈ m.core.routes.installed

/-- Each of them is leased, or the application asks for its host route. -/
def Named (m : Machine reqwest) : Prop :=
  ∀ a ∈ m.tunnelled, Core.hostRoute a ∈ m.core.asked ∨ a ∈ m.core.leases.held

instance (m : Machine reqwest) : Decidable (Pinned m) :=
  inferInstanceAs (Decidable (∀ a ∈ m.tunnelled, Core.hostRoute a ∈ m.core.routes.installed))

/-- The rows are accepted, and the routing table agrees. -/
def Good (m : Machine reqwest) : Prop := m.core.Accepted ∧ m.core.Agrees

variable {m : Machine reqwest}

lemma pinned_iff_named (h : Good m) : Pinned m ↔ Named m := by
  refine forall₂_congr fun a ha => Core.hostRoute_installed h.2 ?_
  unfold tunnelled at ha
  split at ha
  · cases ha
  · exact (List.mem_filter.mp ha).2

lemma Good.perform (h : Good m) (call : Core.Call) : Good (m.perform call) :=
  Core.perform_agrees h.1 h.2 call

lemma Good.foldl (h : Good m) (calls : List Core.Call) : Good (calls.foldl Machine.perform m) := by
  induction calls generalizing m with
  | nil => exact h
  | cons call calls ih => exact ih (h.perform call)

lemma Good.install (h : m.core.Accepted) {walk : Walk (String × Resolver)} {input : PolicyInput}
    (hi : (m.install walk input).1.isOk = true) : Good (m.install walk input).2 := by
  unfold Machine.install Server.install at hi ⊢
  dsimp only at hi ⊢
  split
  · next hp => rw [hp] at hi; cases hi
  · exact ⟨Core.installUnion_accepted_again h, Core.installUnion_agrees h⟩

/-- **From a successful install on, the resolvers reached through the tunnel are routed into it
exactly when they are leased or asked for.** -/
theorem always_pinned_iff (h : m.core.Accepted) {walk : Walk (String × Resolver)}
    {input : PolicyInput} (hi : (m.install walk input).1.isOk = true) (calls : List Core.Call) :
    (∀ taken, taken <+: calls → Pinned (taken.foldl Machine.perform (m.install walk input).2)) ↔
      ∀ taken, taken <+: calls → Named (taken.foldl Machine.perform (m.install walk input).2) :=
  forall₂_congr fun taken _ => pinned_iff_named ((Good.install h hi).foldl taken)

/-! ### One resolver, reached through the tunnel -/

/-- Everything is answered by one plain resolver at `1.1.1.1`, reached through the tunnel. -/
def onlyWarp : PolicyInput :=
  ⟨[⟨"warp", .plain, .v4 0x01010101, none, .tunnel⟩], [⟨.any, "warp", [], false⟩]⟩

/-- A machine whose routing table accepts every row, with this asked for. -/
def accepting (asked : Tun.Prefixes) : Machine noHttps :=
  ⟨((Core.new ⟨fun _ => 0, fun _ => 0⟩ 0).setRoutes asked).2, .new none⟩

/-- The application asks for the resolver's host route, and other addresses come and go. -/
def comings : List Core.Call :=
  [.record .asHeld "example.com" [⟨"example.com", .v4 0x5db8d822, 60⟩] 0, .expire (Duration.secs 601),
    .routesChanged]

theorem always_pinned_iff_asked :
    (∀ taken, taken <+: comings → Pinned (taken.foldl Machine.perform
      ((accepting {(.v4 0x01010101, 32)}).install .asHeld onlyWarp).2)) ↔
    ∀ taken, taken <+: comings → Named (taken.foldl Machine.perform
      ((accepting {(.v4 0x01010101, 32)}).install .asHeld onlyWarp).2) :=
  always_pinned_iff (fun _ => ⟨rfl, rfl⟩) (by decide +kernel) comings

/-- The policy is installed, and the resolver's host route is not. -/
theorem installed_not_pinned :
    ((accepting ∅).install .asHeld onlyWarp).1.isOk = true ∧
      ((accepting ∅).install .asHeld onlyWarp).2.tunnelled = [.v4 0x01010101] ∧
      ¬Pinned ((accepting ∅).install .asHeld onlyWarp).2 := by
  decide +kernel

end Machine

end Masqr.Dns

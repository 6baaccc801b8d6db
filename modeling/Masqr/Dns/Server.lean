import Mathlib
import Masqr.Core.State
import Masqr.Dns.Upstream

/-!
The resolver the machine talks to: the policy it has installed, and what it does with a query
before it asks an upstream.
-/

namespace Masqr.Dns

open Masqr.Lib

section

variable (reqwest : Reqwest)

/-- A policy and the clients that serve it, swapped together. -/
structure Installed where
  policy : Policy
  upstreams : Upstreams reqwest

/-- Why a policy was not installed. -/
inductive InstallError
  | policy (problem : PolicyError)
  | upstream (problem : UpstreamError reqwest)
  | noCatchAll
  | circular (id : String)

structure Stats where
  queries : ℕ
  answered : ℕ
  failed : ℕ
  routed : ℕ

/-- The resolver, its policy, and where it answers, when it answers anywhere. -/
structure Server where
  installed : Option (Installed reqwest)
  stats : Stats
  listen : Option SocketAddr

end

/-- What an install changed. -/
structure InstallReport where
  rules : ℕ
  resolvers : ℕ
  tunnelled : ℕ
  deriving DecidableEq

variable {reqwest : Reqwest}

def InstallError.text : InstallError reqwest → String
  | .policy problem => problem.text
  | .upstream problem => problem.text
  | .noCatchAll => "the policy decides nothing about some names; add a rule matching `any`, or " ++
    "the machine would have names this resolver refuses to answer and no other resolver to ask"
  | .circular id => s!"the resolver `{id}` is this core's own address; every name sent there " ++
    "would be a question asked of itself"

namespace Server

def new (listen : Option SocketAddr) : Server reqwest := ⟨none, ⟨0, 0, 0, 0⟩, listen⟩

/-- A resolver at the address this core answers on is this core. -/
def circular (listen : Option SocketAddr) (declared : List Resolver) : Option Resolver :=
  listen.bind fun listen => declared.find? fun r => r.kind = .plain ∧ r.address = listen.ip

/-- Everything that can be refused about a policy is refused here. -/
def prepare (s : Server reqwest) (walk : Walk (String × Resolver)) (input : PolicyInput) :
    Except (InstallError reqwest) (Installed reqwest) :=
  match Policy.build input with
  | .error problem => .error (.policy problem)
  | .ok policy =>
    if !policy.decidesEverything then .error .noCatchAll
    else
      let declared := (walk.order policy.resolvers.toList).map Prod.snd
      match circular s.listen declared with
      | some resolver => .error (.circular resolver.id)
      | none =>
        match Upstreams.build declared with
        | .error problem => .error (.upstream problem)
        | .ok upstreams => .ok ⟨policy, upstreams⟩

def report (p : Policy) : InstallReport := ⟨p.ruleCount, p.resolverCount, p.tunnelledResolvers.length⟩

/-- Put a policy in place, replacing whatever was there, and have the routes made to agree. -/
def install (s : Server reqwest) (core : Core) (walk : Walk (String × Resolver))
    (input : PolicyInput) : Except (InstallError reqwest) InstallReport × Server reqwest × Core :=
  match s.prepare walk input with
  | .error problem => (.error problem, s, core)
  | .ok installed =>
    (.ok (report installed.policy), { s with installed := some installed }, core.routesChanged.2)

end Server

/-- The core, and the resolver that tells it of routes. -/
structure Machine (reqwest : Reqwest) where
  core : Core
  server : Server reqwest

def Machine.install (m : Machine reqwest) (walk : Walk (String × Resolver)) (input : PolicyInput) :
    Except (InstallError reqwest) InstallReport × Machine reqwest :=
  let r := m.server.install m.core walk input
  (r.1, ⟨r.2.2, r.2.1⟩)

def Machine.perform (m : Machine reqwest) (call : Core.Call) : Machine reqwest :=
  { m with core := m.core.perform call }

/-! ### Queries -/

/-- The query, marked as a reply that could not be served. -/
def failureReply (query : Message) : Option Message :=
  if query.length < HEADER_LEN then none
  else some (query.take 2 ++ [query.getD 2 0 ||| 0x80, 0x80 ||| 2] ++ (query.drop 4).take 2 ++
    List.replicate 6 0 ++ query.drop 12)

/-- A query whose upstream is to be asked: what it asks for, whether its answer is routed, and
the rule that decided. -/
structure Asking (reqwest : Reqwest) where
  asked : Query
  route : Bool
  rule : ℕ
  resolver : Resolver
  upstream : Upstream reqwest

/-- What the policy in force says about a query; nothing where the query is to fail. -/
def consult (installed : Option (Installed reqwest)) (query : Message) (asker : Option Asker) :
    Option (Asking reqwest) :=
  match readQuery query with
  | .error _ => none
  | .ok asked =>
    installed.bind fun installed =>
      match installed.policy.decide asked.name asker with
      | .error _ | .ok none => none
      | .ok (some decision) =>
        (installed.upstreams.get decision.resolver.id).map fun upstream =>
          ⟨asked, decision.route, decision.rule, decision.resolver, upstream⟩

/-- Whether the addresses of an answer become routes. -/
def Asking.asksForAddresses (a : Asking reqwest) : Bool :=
  a.route && (a.asked.qtype == TYPE_A || a.asked.qtype == TYPE_AAAA) && a.asked.qclass == CLASS_IN

/-- The addresses of a reply, none where it cannot be read. -/
def foundIn (reply : Message) : List Record := (readAnswers reply).toOption.getD []

end Masqr.Dns

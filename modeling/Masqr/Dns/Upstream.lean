import Mathlib
import Masqr.Dns.Message
import Masqr.Dns.Policy

/-!
The upstream resolvers of a policy, prepared once and asked many times.
-/

namespace Masqr.Dns

/-- An address and a port. -/
structure SocketAddr where
  ip : IpAddr
  port : ℕ
  deriving DecidableEq

/-- The client for HTTPS, which is not part of this repository: how it reads a url, and how it
prepares a client for a host that is dialled at one address. -/
structure Reqwest where
  Url : Type
  Client : Type
  Error : Type
  parse : String → Option Url
  hostStr : Url → Option String
  port : Url → Option ℕ
  build : (host : String) → (dialled : SocketAddr) → (source : Option IpAddr) → Except Error Client
  text : Error → String

/-- A client for HTTPS that reads no url; a plain resolver needs none. -/
def noHttps : Reqwest :=
  ⟨Unit, Unit, Unit, fun _ => none, fun _ => none, fun _ => none, fun _ _ _ => .error (), fun _ => ""⟩

section

variable (reqwest : Reqwest)

/-- Why an upstream could not be built to be asked. -/
inductive UpstreamError
  | badUrl (url : String)
  | noHost (url : String)
  | client (id : String) (source : reqwest.Error)

/-- A DoH resolver: where it is dialled, the name its certificate is checked against, and the
client with the address it dials from. -/
structure Doh where
  id : String
  url : String
  host : String
  dialled : SocketAddr
  boundFrom : Option IpAddr
  client : reqwest.Client

inductive Upstream
  | plain (address : IpAddr)
  | doh (doh : Doh reqwest)

/-- Every declared resolver, ready to be asked. -/
structure Upstreams where
  byId : Std.ExtTreeMap String (Upstream reqwest)

end

variable {reqwest : Reqwest}

def UpstreamError.text : UpstreamError reqwest → String
  | .badUrl url => s!"`{url}` is not a url"
  | .noHost url => s!"the url `{url}` names no host, so there is nothing to check a certificate against"
  | .client id source => s!"preparing the client for `{id}`: {reqwest.text source}"

/-- The client for one declared resolver. -/
def Upstream.build (resolver : Resolver) : Except (UpstreamError reqwest) (Upstream reqwest) :=
  match resolver.kind with
  | .plain => .ok (.plain resolver.address)
  | .doh =>
    let url := resolver.url.getD ""
    match reqwest.parse url with
    | none => .error (.badUrl url)
    | some parsed =>
      match reqwest.hostStr parsed with
      | none => .error (.noHost url)
      | some host =>
        let dialled : SocketAddr := ⟨resolver.address, (reqwest.port parsed).getD 443⟩
        match reqwest.build host dialled none with
        | .error source => .error (.client resolver.id source)
        | .ok client => .ok (.doh ⟨resolver.id, url, host, dialled, none, client⟩)

def Upstreams.add (u : Upstreams reqwest) (resolver : Resolver) :
    Except (UpstreamError reqwest) (Upstreams reqwest) :=
  (Upstream.build resolver).map fun upstream => ⟨u.byId.insert resolver.id upstream⟩

/-- A client for each resolver, or the first failure to prepare one. -/
def Upstreams.build (resolvers : List Resolver) :
    Except (UpstreamError reqwest) (Upstreams reqwest) :=
  resolvers.foldlM Upstreams.add ⟨∅⟩

def Upstreams.get (u : Upstreams reqwest) (id : String) : Option (Upstream reqwest) := u.byId[id]?

/-- What ties a reply to its query, where the message is long enough to be one. -/
def transactionId (message : Message) : Option ℕ :=
  if message.length < HEADER_LEN then none else some (fromBeBytes (message.take 2))

end Masqr.Dns

import Masqr.Dns.Upstream
import Masqr.Lib.Exact

/-!
Asking an upstream resolver, and checking that the reply belongs to the query.

The sockets and the client for HTTPS are taken as they answer: what a datagram is answered with,
the stream a connection gives back, the response to a request.
-/

namespace Masqr.Dns

open Masqr.Lib

def DNS_PORT : ℕ := 53
def MAX_MESSAGE : ℕ := 65535

/-- What a datagram is received into. -/
def UDP_BUFFER : ℕ := 1500

/-- The bit that is looked at for whether a reply was cut short, in the fourth byte of a message. -/
def FLAG_TRUNCATED : UInt8 := 0x02

/-- How an exchange over a socket fails: the system says why, or nothing comes in time. -/
inductive Trouble
  | io (problem : String)
  | silent

section

variable (reqwest : Reqwest)

/-- What becomes of a request over HTTPS; a body may still fail to come in. -/
inductive Posted
  | timedOut
  | failed (problem : reqwest.Error)
  | response (status : ℕ) (body : Except reqwest.Error Message)

/-- Why an upstream could not answer. -/
inductive AskError
  | client (id : String) (source : reqwest.Error)
  | io (problem : String)
  | timeout
  | http (status : ℕ)
  | request (problem : reqwest.Error)
  | tooShort (length : ℕ)
  | mismatched

/-- What is outside: a datagram asked from a local address, a connection from one, the bytes that
come back on it for those sent, and a request over HTTPS. -/
structure Network where
  udp : (target : SocketAddr) → (source : IpAddr) → Message → Except Trouble Message
  connect : (target : SocketAddr) → (source : Option IpAddr) → Except Trouble Unit
  stream : (target : SocketAddr) → (source : Option IpAddr) → List UInt8 → Incoming UInt8 Trouble
  post : reqwest.Client → (url : String) → Message → Posted reqwest

end

variable {reqwest : Reqwest}

def Trouble.error : Trouble → AskError reqwest
  | .io problem => .io problem
  | .silent => .timeout

def transaction (message : Message) : Except (AskError reqwest) ℕ :=
  match transactionId message with
  | none => .error (.tooShort message.length)
  | some id => .ok id

def isTruncated (message : Message) : Except (AskError reqwest) Bool :=
  if message.length < HEADER_LEN then .error (.tooShort message.length)
  else .ok (message.getD 3 0 &&& FLAG_TRUNCATED != 0)

/-- The local address a socket is bound to. -/
def localFor (target : SocketAddr) (source : Option IpAddr) : IpAddr :=
  source.getD (match target.ip with
    | .v4 _ => .v4 0
    | .v6 _ => .v6 0)

namespace Network

variable (network : Network reqwest)

/-- The same query over TCP, where a message is preceded by its length. -/
def askOverTcp (target : SocketAddr) (source : Option IpAddr) (query : Message) :
    Except (AskError reqwest) Message :=
  match network.connect target source with
  | .error trouble => .error trouble.error
  | .ok () =>
    if 65535 < query.length then .error (.io "the query is too long")
    else
      let stream := network.stream target source (frame query)
      match Incoming.take 2 stream.pieces with
      | none => .error stream.ends.error
      | some (header, rest) =>
        match Incoming.take (min (ofBe 0 header) MAX_MESSAGE) rest with
        | none => .error stream.ends.error
        | some (reply, _) => .ok reply

/-- UDP first, and TCP when the answer says that it did not fit. -/
def askPlain (target : SocketAddr) (source : Option IpAddr) (query : Message) :
    Except (AskError reqwest) Message :=
  match network.udp target (localFor target source) query with
  | .error trouble => .error trouble.error
  | .ok datagram =>
    let buffer := datagram.take UDP_BUFFER
    match isTruncated buffer with
    | .error problem => .error problem
    | .ok true => network.askOverTcp target source query
    | .ok false => .ok buffer

def askDoh (client : reqwest.Client) (url : String) (query : Message) :
    Except (AskError reqwest) Message :=
  match network.post client url query with
  | .timedOut => .error .timeout
  | .failed problem => .error (.request problem)
  | .response status body =>
    if status < 200 ∨ 300 ≤ status then .error (.http status)
    else
      match body with
      | .error problem => .error (.request problem)
      | .ok bytes => .ok bytes

end Network

/-- The client that dials from `source`, built afresh when that is not the address the current one
dials from. -/
def Doh.clientFrom (doh : Doh reqwest) (source : Option IpAddr) :
    Except (AskError reqwest) reqwest.Client × Doh reqwest :=
  if doh.boundFrom ≠ source then
    match reqwest.build doh.host doh.dialled source with
    | .error problem => (.error (.client doh.id problem), doh)
    | .ok client => (.ok client, { doh with boundFrom := source, client := client })
  else (.ok doh.client, doh)

/-- The reply as it came back, and the upstream with the client it now has. -/
def Upstream.exchange (network : Network reqwest) (u : Upstream reqwest) (query : Message)
    (source : Option IpAddr) : Except (AskError reqwest) Message × Upstream reqwest :=
  match u with
  | .plain address => (network.askPlain ⟨address, DNS_PORT⟩ source query, u)
  | .doh prepared =>
    match prepared.clientFrom source with
    | (.error problem, kept) => (.error problem, .doh kept)
    | (.ok client, bound) => (network.askDoh client bound.url query, .doh bound)

/-- Ask, and return the reply as it came back where it carries the query's id. -/
def Upstream.ask (network : Network reqwest) (u : Upstream reqwest) (query : Message)
    (source : Option IpAddr) : Except (AskError reqwest) Message × Upstream reqwest :=
  match transaction query with
  | .error problem => (.error problem, u)
  | .ok wanted =>
    match u.exchange network query source with
    | (.error problem, u) => (.error problem, u)
    | (.ok reply, u) =>
      match transaction reply with
      | .error problem => (.error problem, u)
      | .ok id => if id ≠ wanted then (.error .mismatched, u) else (.ok reply, u)

/-! ### What is accepted -/

/-- The reply is a message, and carries the id of the query. -/
structure Belongs (query reply : Message) : Prop where
  long : HEADER_LEN ≤ query.length
  whole : HEADER_LEN ≤ reply.length
  id : reply.take 2 = query.take 2

lemma transactionId_eq {message : Message} {id : ℕ} : transactionId message = some id ↔
    HEADER_LEN ≤ message.length ∧ ofBe 0 (message.take 2) = id := by
  unfold transactionId
  split_ifs with hshort
  · exact iff_of_false (by simp) fun h => by omega
  · simp [show HEADER_LEN ≤ message.length by omega, fromBeBytes, ofBe]

/-- Two messages have the same id when they begin with the same two bytes. -/
lemma belongs_iff (query reply : Message) : Belongs query reply ↔
    ∃ id, transactionId query = some id ∧ transactionId reply = some id := by
  constructor
  · rintro ⟨hquery, hreply, hid⟩
    exact ⟨_, transactionId_eq.2 ⟨hquery, rfl⟩, transactionId_eq.2 ⟨hreply, by rw [hid]⟩⟩
  · rintro ⟨id, hquery, hreply⟩
    obtain ⟨hlq, hq⟩ := transactionId_eq.1 hquery
    obtain ⟨hlr, hr⟩ := transactionId_eq.1 hreply
    refine ⟨hlq, hlr, ?_⟩
    have hlength : (reply.take 2).length = (query.take 2).length := by
      simp only [HEADER_LEN, List.length_take] at hlq hlr ⊢
      omega
    rw [← toBe_ofBe (reply.take 2) 0, ← toBe_ofBe (query.take 2) 0, hr, hq, hlength]

/-- The datagram is asked about again over TCP. -/
def AsksAgain (datagram : Message) : Prop := datagram.getD 3 0 &&& FLAG_TRUNCATED ≠ 0

instance (datagram : Message) : Decidable (AsksAgain datagram) :=
  inferInstanceAs (Decidable (_ ≠ _))

/-- How a reply comes in: as the datagram itself, or, where that asks for it, as the first message
of the stream, or as the body of a response. -/
inductive Delivers (network : Network reqwest) (query : Message) (source : Option IpAddr)
    (reply : Message) : Upstream reqwest → Prop
  | udp {address : IpAddr} {datagram : Message} :
      network.udp ⟨address, DNS_PORT⟩ (localFor ⟨address, DNS_PORT⟩ source) query = .ok datagram →
      ¬ AsksAgain datagram → reply = datagram.take UDP_BUFFER →
      Delivers network query source reply (.plain address)
  | tcp {address : IpAddr} {datagram : Message} :
      network.udp ⟨address, DNS_PORT⟩ (localFor ⟨address, DNS_PORT⟩ source) query = .ok datagram →
      HEADER_LEN ≤ datagram.length → AsksAgain datagram →
      network.connect ⟨address, DNS_PORT⟩ source = .ok () → query.length ≤ 65535 →
      frame reply <+: (network.stream ⟨address, DNS_PORT⟩ source (frame query)).whole →
      reply.length ≤ 65535 → Delivers network query source reply (.plain address)
  | https {doh : Doh reqwest} {client : reqwest.Client} {status : ℕ} :
      (doh.clientFrom source).1 = .ok client →
      network.post client doh.url query = .response status (.ok reply) →
      200 ≤ status → status < 300 → Delivers network query source reply (.doh doh)

section

variable (network : Network reqwest) (target : SocketAddr) (source : Option IpAddr)
  (query reply : Message)

/-- A reply over TCP is the first message of the stream, however that is cut. -/
lemma askOverTcp_ok : network.askOverTcp target source query = .ok reply ↔
    network.connect target source = .ok () ∧ query.length ≤ 65535 ∧ reply.length ≤ 65535 ∧
      frame reply <+: (network.stream target source (frame query)).whole := by
  unfold Network.askOverTcp
  cases hconnect : network.connect target source with
  | error trouble => simp
  | ok u =>
    by_cases hlong : 65535 < query.length
    · simp [hlong]
    simp only [hlong, if_false]
    generalize network.stream target source (frame query) = stream
    constructor
    · intro h
      cases hheader : Incoming.take 2 stream.pieces with
      | none => simp [hheader] at h
      | some r =>
        obtain ⟨header, rest⟩ := r
        obtain ⟨htwo, hflat⟩ := Incoming.take_some hheader
        have hlt := ofBe_pair_lt htwo
        have hmin : min (ofBe 0 header) MAX_MESSAGE = ofBe 0 header := by
          unfold MAX_MESSAGE
          omega
        simp only [hheader, hmin] at h
        cases hbody : Incoming.take (ofBe 0 header) rest with
        | none => simp [hbody] at h
        | some r =>
          obtain ⟨body, later⟩ := r
          simp only [hbody] at h
          cases h
          obtain ⟨hlength, hrest⟩ := Incoming.take_some hbody
          refine ⟨trivial, by omega, by omega, later.flatten, ?_⟩
          rw [frame_of_announced htwo hlength, Incoming.whole, hflat, hrest, List.append_assoc]
    · rintro ⟨-, -, hlength, later, hwhole⟩
      rw [frame, List.append_assoc] at hwhole
      obtain ⟨rest, hheader, hrest⟩ := Incoming.take_of_append hwhole.symm
      obtain ⟨rest', hbody, -⟩ := Incoming.take_of_append hrest
      rw [length_toBe] at hheader
      have hmin : min (ofBe 0 (toBe 2 reply.length)) MAX_MESSAGE = reply.length := by
        rw [ofBe_frame (by omega)]
        unfold MAX_MESSAGE
        omega
      simp only [hheader, hmin, hbody]

/-- Whether a datagram is asked about again is read off what of it fits the buffer. -/
lemma isTruncated_eq {datagram : Message} (h : HEADER_LEN ≤ datagram.length) :
    @isTruncated reqwest (datagram.take UDP_BUFFER) = .ok (decide (AsksAgain datagram)) := by
  have hlong : ¬ (datagram.take UDP_BUFFER).length < HEADER_LEN := by
    simp only [List.length_take, UDP_BUFFER, HEADER_LEN] at h ⊢
    omega
  have hbyte : (datagram.take UDP_BUFFER).getD 3 0 = datagram.getD 3 0 := by
    simp only [List.getD_eq_getElem?_getD, UDP_BUFFER]
    rw [List.getElem?_take_of_lt (by omega)]
  unfold isTruncated AsksAgain
  rw [if_neg hlong, hbyte]
  simp [bne, BEq.beq]

lemma isTruncated_short {buffer : Message} (h : buffer.length < HEADER_LEN) :
    @isTruncated reqwest buffer = .error (.tooShort buffer.length) := if_pos h

lemma askPlain_ok {address : IpAddr} (hreply : HEADER_LEN ≤ reply.length) :
    network.askPlain ⟨address, DNS_PORT⟩ source query = .ok reply ↔
      Delivers network query source reply (.plain address) := by
  unfold Network.askPlain
  cases hudp : network.udp ⟨address, DNS_PORT⟩ (localFor ⟨address, DNS_PORT⟩ source) query with
  | error trouble =>
    refine iff_of_false (by simp) fun h => ?_
    cases h with
    | udp hok => simp [hudp] at hok
    | tcp hok => simp [hudp] at hok
  | ok datagram =>
    by_cases hshort : datagram.length < HEADER_LEN
    · have hcut : (datagram.take UDP_BUFFER).length < HEADER_LEN := by
        simp only [List.length_take]
        omega
      simp only [isTruncated_short hcut]
      refine iff_of_false (by simp) fun h => ?_
      cases h with
      | udp hok _ hcopy =>
        cases hudp.symm.trans hok
        rw [hcopy] at hreply
        omega
      | tcp hok hlong =>
        cases hudp.symm.trans hok
        omega
    · simp only [@isTruncated_eq reqwest _ (Nat.le_of_not_lt hshort)]
      by_cases hagain : AsksAgain datagram
      · simp only [hagain, decide_true, askOverTcp_ok]
        constructor
        · rintro ⟨hconnect, hquery, hlength, hstream⟩
          exact .tcp hudp (Nat.le_of_not_lt hshort) hagain hconnect hquery hstream hlength
        · intro h
          cases h with
          | udp hok hnot =>
            cases hudp.symm.trans hok
            exact absurd hagain hnot
          | tcp _ _ _ hconnect hquery hstream hlength => exact ⟨hconnect, hquery, hlength, hstream⟩
      · simp only [hagain, decide_false]
        constructor
        · intro h
          cases h
          exact .udp hudp hagain rfl
        · intro h
          cases h with
          | udp hok _ hcopy =>
            cases hudp.symm.trans hok
            rw [hcopy]
          | tcp hok _ hyes =>
            cases hudp.symm.trans hok
            exact absurd hyes hagain

lemma askDoh_ok (client : reqwest.Client) (url : String) :
    network.askDoh client url query = .ok reply ↔
      ∃ status, network.post client url query = .response status (.ok reply) ∧ 200 ≤ status ∧
        status < 300 := by
  unfold Network.askDoh
  cases hpost : network.post client url query with
  | timedOut => simp
  | failed problem => simp
  | response status body =>
    cases body with
    | error problem =>
      simp only
      split_ifs <;> simp
    | ok bytes =>
      simp only
      split_ifs with hstatus
      · refine iff_of_false (by simp) ?_
        rintro ⟨status', heq, hlow, hhigh⟩
        cases heq
        omega
      · constructor
        · intro h
          cases h
          exact ⟨status, rfl, by omega, by omega⟩
        · rintro ⟨status', heq, -, -⟩
          cases heq
          rfl

/-- A resolver over HTTPS is asked at its url, with the client that is handed out. -/
lemma exchange_doh (doh : Doh reqwest) : (Upstream.doh doh).exchange network query source =
    (match (doh.clientFrom source).1 with
      | .error problem => .error problem
      | .ok client => network.askDoh client doh.url query, .doh (doh.clientFrom source).2) := by
  have hurl : (doh.clientFrom source).2.url = doh.url := by
    unfold Doh.clientFrom
    split
    · split <;> rfl
    · rfl
  unfold Upstream.exchange
  simp only
  rw [← hurl]
  split <;> simp_all

lemma exchange_ok (u : Upstream reqwest) (hreply : HEADER_LEN ≤ reply.length) :
    (u.exchange network query source).1 = .ok reply ↔ Delivers network query source reply u := by
  cases u with
  | plain address => exact askPlain_ok network source query reply hreply
  | doh doh =>
    rw [exchange_doh]
    constructor
    · intro h
      cases hc : (doh.clientFrom source).1 with
      | error problem => simp [hc] at h
      | ok client =>
        simp only [hc, askDoh_ok] at h
        obtain ⟨status, hpost, hlow, hhigh⟩ := h
        exact .https hc hpost hlow hhigh
    · intro h
      cases h with
      | https hc hpost hlow hhigh =>
        simp only [hc, askDoh_ok]
        exact ⟨_, hpost, hlow, hhigh⟩

/-- What came in is given back where its id is the query's. -/
lemma ask_eq_ok (u : Upstream reqwest) : (u.ask network query source).1 = .ok reply ↔
    (∃ id, transactionId query = some id ∧ transactionId reply = some id) ∧
      (u.exchange network query source).1 = .ok reply := by
  unfold Upstream.ask transaction
  cases hquery : transactionId query with
  | none => simp
  | some wanted =>
    cases hex : u.exchange network query source with
    | mk result kept =>
      cases result with
      | error problem => simp
      | ok came =>
        cases hcame : transactionId came with
        | none =>
          refine iff_of_false (by simp [hcame]) ?_
          rintro ⟨⟨id, -, hreply⟩, heq⟩
          cases heq
          simp [hcame] at hreply
        | some id =>
          by_cases hid : id = wanted
          · simp only [hcame, hid, ne_eq, not_true_eq_false, if_false]
            constructor
            · intro h
              cases h
              exact ⟨⟨wanted, rfl, hid ▸ hcame⟩, rfl⟩
            · exact fun h => h.2
          · refine iff_of_false (by simp [hcame, hid]) ?_
            rintro ⟨⟨id', hwanted, hreply⟩, heq⟩
            cases heq
            rw [hcame] at hreply
            exact hid (Option.some.inj (hreply.trans hwanted.symm))

/-- **A reply is accepted** when it carries the id of the query and comes in as it should. -/
theorem ask_ok_iff (u : Upstream reqwest) : (u.ask network query source).1 = .ok reply ↔
    Belongs query reply ∧ Delivers network query source reply u := by
  rw [ask_eq_ok, ← belongs_iff]
  exact and_congr_right fun hbelongs => exchange_ok network source query reply u hbelongs.whole

end

/-! ### Which datagrams are asked about again -/

/-- An answer as it is sent where it does not fit: marked as cut short, with less behind its
header. -/
structure CutShort (full datagram : Message) : Prop where
  whole : HEADER_LEN ≤ datagram.length
  shorter : datagram.length < full.length
  id : datagram.take 2 = full.take 2
  marked : datagram.getD 2 0 = full.getD 2 0 ||| 0x02
  code : datagram.getD 3 0 = full.getD 3 0

/-- A resolver has one answer to the query: it is what its connections carry, and its datagrams
carry it whole or cut short. -/
structure Resolves (network : Network reqwest) (address : IpAddr) (source : Option IpAddr)
    (query full datagram : Message) : Prop where
  answers : Belongs query full
  asks : query.length ≤ 65535
  fits : full.length ≤ 65535
  udp : network.udp ⟨address, DNS_PORT⟩ (localFor ⟨address, DNS_PORT⟩ source) query = .ok datagram
  sends : datagram = full ∨ CutShort full datagram
  connect : network.connect ⟨address, DNS_PORT⟩ source = .ok ()
  stream : frame full <+: (network.stream ⟨address, DNS_PORT⟩ source (frame query)).whole

section

variable {network : Network reqwest} {address : IpAddr} {source : Option IpAddr}
  {query full datagram : Message}

/-- A datagram is as long as a message, and carries the id and the response code of the answer. -/
lemma Resolves.header (h : Resolves network address source query full datagram) :
    HEADER_LEN ≤ datagram.length ∧ datagram.take 2 = full.take 2 ∧
      datagram.getD 3 0 = full.getD 3 0 := by
  rcases h.sends with rfl | hcut
  · exact ⟨h.answers.whole, rfl, rfl⟩
  · exact ⟨hcut.whole, hcut.id, hcut.code⟩

end

/-- An answer of so many bytes, with the response code. -/
def answerOf (code : UInt8) (length : ℕ) : Message :=
  [0x12, 0x34, 0x81, code] ++ List.replicate length 0

/-- A resolver whose answer does not fit its datagrams, and comes over its connections in one
piece. -/
def crowded (code : UInt8) : Network noHttps where
  udp _ _ _ := .ok ([0x12, 0x34, 0x83, code] ++ List.replicate 8 0)
  connect _ _ := .ok ()
  stream _ _ _ := ⟨[frame (answerOf code 20)], .silent⟩
  post _ _ _ := .timedOut

/-- The replies to queries asked one after another, each of the upstream as the one before left
it. -/
def Upstream.asks (network : Network reqwest) : Upstream reqwest →
    List (Message × Option IpAddr) → List (Except (AskError reqwest) Message)
  | _, [] => []
  | u, (query, source) :: later =>
    (u.ask network query source).1 :: asks network (u.ask network query source).2 later

/-- The client was built for the address it is bound to. -/
def Doh.Built (doh : Doh reqwest) : Prop :=
  reqwest.build doh.host doh.dialled doh.boundFrom = .ok doh.client

/-- The same resolver, whatever address its client is bound to. -/
inductive Kin : Upstream reqwest → Upstream reqwest → Prop
  | plain (address : IpAddr) : Kin (.plain address) (.plain address)
  | doh {a b : Doh reqwest} : a.Built → b.Built → a.id = b.id → a.url = b.url → a.host = b.host →
      a.dialled = b.dialled → Kin (.doh a) (.doh b)

/-- The client handed out is the one that would be built for the address. -/
lemma clientFrom_eq {doh : Doh reqwest} (h : doh.Built) (source : Option IpAddr) :
    (doh.clientFrom source).1 = match reqwest.build doh.host doh.dialled source with
      | .error problem => .error (.client doh.id problem)
      | .ok client => .ok client := by
  unfold Doh.clientFrom
  split_ifs with hmoved
  · cases reqwest.build doh.host doh.dialled source <;> rfl
  · rw [ne_eq, not_not] at hmoved
    rw [← hmoved, h]

/-- What is kept is the same resolver, with a client built for the address it is bound to. -/
lemma clientFrom_kin {doh : Doh reqwest} (h : doh.Built) (source : Option IpAddr) :
    Kin (.doh doh) (.doh (doh.clientFrom source).2) := by
  unfold Doh.clientFrom
  split_ifs with hmoved
  · cases hb : reqwest.build doh.host doh.dialled source with
    | error problem => exact .doh h h rfl rfl rfl rfl
    | ok client => exact .doh h hb rfl rfl rfl rfl
  · exact .doh h h rfl rfl rfl rfl

section

variable {u v w : Upstream reqwest} (network : Network reqwest) (query : Message)
  (source : Option IpAddr)

lemma Kin.trans (h : Kin u v) (h' : Kin v w) : Kin u w := by
  cases h with
  | plain => exact h'
  | doh ha hb hid hurl hhost hdialled =>
    cases h' with
    | doh _ hc hid' hurl' hhost' hdialled' =>
      exact .doh ha hc (hid.trans hid') (hurl.trans hurl') (hhost.trans hhost')
        (hdialled.trans hdialled')

lemma Kin.exchange (h : Kin u v) :
    (u.exchange network query source).1 = (v.exchange network query source).1 := by
  cases h with
  | plain => rfl
  | @doh a b ha hb hid hurl hhost hdialled =>
    have hclient : (a.clientFrom source).1 = (b.clientFrom source).1 := by
      rw [clientFrom_eq ha, clientFrom_eq hb, hid, hhost, hdialled]
    rw [exchange_doh, exchange_doh, hclient, hurl]

lemma Kin.ask (h : Kin u v) : (u.ask network query source).1 = (v.ask network query source).1 := by
  have hex := h.exchange network query source
  unfold Upstream.ask
  cases transaction query with
  | error problem => rfl
  | ok wanted =>
    cases hu : u.exchange network query source with
    | mk cameU keptU =>
      cases hv : v.exchange network query source with
      | mk cameV keptV =>
        rw [hu, hv] at hex
        simp only at hex
        subst hex
        cases cameU with
        | error problem => rfl
        | ok reply =>
          cases hid : @transaction reqwest reply with
          | error problem => simp [hid]
          | ok id =>
            simp only [hid]
            split_ifs <;> rfl

/-- What an ask leaves is the upstream it was put to. -/
lemma ask_kin (h : Kin u u) : Kin u (u.ask network query source).2 := by
  have hexchange : Kin u (u.exchange network query source).2 := by
    cases h with
    | plain => exact .plain _
    | doh ha =>
      rw [exchange_doh]
      exact clientFrom_kin ha source
  unfold Upstream.ask
  cases transaction query with
  | error problem => exact h
  | ok wanted =>
    cases hu : u.exchange network query source with
    | mk came kept =>
      rw [hu] at hexchange
      cases came with
      | error problem => exact hexchange
      | ok reply =>
        cases hid : @transaction reqwest reply with
        | error problem => simpa [hid] using hexchange
        | ok id =>
          simp only [hid]
          split_ifs <;> exact hexchange

lemma Kin.asks (h : Kin u v) (hu : Kin u u) (queries : List (Message × Option IpAddr)) :
    v.asks network queries = queries.map fun q => (u.ask network q.1 q.2).1 := by
  induction queries generalizing v with
  | nil => rfl
  | cons q queries ih =>
    have hv : Kin v v := by
      cases h with
      | plain => exact .plain _
      | doh _ hb => exact .doh hb hb rfl rfl rfl rfl
    rw [Upstream.asks, List.map_cons, h.ask network q.1 q.2,
      ih (h.trans (ask_kin network q.1 q.2 hv))]

/-- An upstream that was prepared has a client for where it is bound to, which is nowhere yet. -/
lemma kin_of_build {resolver : Resolver} (h : Upstream.build resolver = .ok u) : Kin u u := by
  unfold Upstream.build at h
  split at h
  · cases h
    exact .plain _
  · simp only at h
    split at h
    · cases h
    split at h
    · cases h
    split at h
    · cases h
    next client hbuild =>
      cases h
      exact .doh hbuild hbuild rfl rfl rfl rfl

end

/-- **That a client is kept changes no answer**: an upstream that was prepared answers each query
as it would have answered it first, whatever it was asked before and from which addresses. -/
theorem asks_eq (network : Network reqwest) {resolver : Resolver} {u : Upstream reqwest}
    (h : Upstream.build resolver = .ok u) (queries : List (Message × Option IpAddr)) :
    u.asks network queries = queries.map fun q => (u.ask network q.1 q.2).1 :=
  (kin_of_build h).asks network (kin_of_build h) queries

/-- A client that is the address it dials from, for urls that are their own host. -/
def dialling : Reqwest :=
  ⟨String, Option IpAddr, Unit, some, some, fun _ => none, fun _ _ source => .ok source,
    fun _ => ""⟩

/-- Queries over HTTPS are answered when they are dialled from an address. -/
def fromLine : Network dialling where
  udp _ _ _ := .error .silent
  connect _ _ := .error .silent
  stream _ _ _ := ⟨[], .silent⟩
  post client _ query :=
    match (client : Option IpAddr) with
    | none => .timedOut
    | some _ => .response 200 (.ok query)

def overHttps : Resolver := ⟨"doh", .doh, .v4 0x08080808, some "dns.google", .direct⟩

theorem asks_eq_fromLine : ∃ u : Upstream dialling, Upstream.build overHttps = .ok u ∧
    u.asks fromLine [(List.replicate 12 0, none), (List.replicate 12 0, some (.v4 1)),
        (List.replicate 12 0, none)] =
      [.error .timeout, .ok (List.replicate 12 0), .error .timeout] :=
  ⟨_, rfl, (@asks_eq dialling fromLine overHttps _ rfl _).trans rfl⟩

end Masqr.Dns

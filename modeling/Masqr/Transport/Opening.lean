import Mathlib
import Masqr.Engine.State
import Masqr.Lib.Future
import Masqr.Net
import Masqr.Transport.Response
import Masqr.Transport.Settings
import Masqr.Warp.Enrolment

/-!
Opening a tunnel: the stages of each carrier, the waits that bound them, and which carrier one
attempt ends up with.
-/

namespace Masqr

open Lib

namespace Warp

/-- The endpoint's name. -/
def CONNECT_SNI : String := "consumer-masque.cloudflareclient.com"

def ENDPOINT_H3_V4 : String := "162.159.198.1"

/-- The HTTP/3 endpoint to dial: the one registration returned, or the known one where that was not
kept. -/
def Identity.endpointH3V4 (identity : Identity) : String :=
  if identity.endpointV4.isEmpty then ENDPOINT_H3_V4 else identity.endpointV4

end Warp

namespace Transport

/-- An unfiltered name, presented in place of the one the tunnel is really for. -/
def FRONTED_SNI : String := "www.cloudflare.com"

namespace Handshake

def name : Handshake → String
  | named => "named"
  | noSni => "no-sni"
  | split => "split"
  | splitSlow => "split-slow"
  | fronted => "fronted"

/-- The name in the ClientHello, if it has one; another may have been set for `fronted`. -/
def sni (handshake : Handshake) (frontedName : Option String) : Option String :=
  match handshake with
  | noSni => none
  | fronted => some (frontedName.getD FRONTED_SNI)
  | _ => some Warp.CONNECT_SNI

end Handshake

/-- What a run presents, and the largest packet it is to carry. -/
structure Hello where
  handshake : Handshake
  frontedName : Option String
  largestPacket : ℕ

def Hello.sni (hello : Hello) : String := (hello.handshake.sni hello.frontedName).getD "none"

/-- A status as it is written, with its reason where it has one. -/
def statusText (reason : ℕ → Option String) (status : ℕ) : String :=
  toString status ++ " " ++ (reason status).getD "<unknown status code>"

def ConnectError.text (reason : ℕ → Option String) : ConnectError → String
  | .tlsSetup problem => problem
  | .io problem => s!"io: {problem}"
  | .h2 problem => s!"http/2: {problem}"
  | .request problem => s!"building the connect request: {problem}"
  | .refused status => "the endpoint refused the tunnel with " ++ statusText reason status
  | .badEndpoint address => s!"the endpoint address {address} is not an address"
  | .closed => "the tunnel was closed while a packet was waiting to be sent"
  | .framing problem => problem.text
  | .handshakeCut sni how => s!"the TLS handshake ({how}, name {sni}) was cut with no reply. " ++
      "On a filtered link that is what a blocked name looks like"
  | .quicUnavailable why => s!"QUIC to the endpoint did not come up: {why}"
  | .h3Unanswered sni how => s!"the endpoint took the QUIC handshake ({how}, name {sni}) and " ++
      "then answered nothing. On a filtered link that is what a blocked name looks like"
  | .h3Refused status =>
    "the endpoint refused the tunnel over HTTP/3 with " ++ statusText reason status
  | .h3Unfit why => s!"HTTP/3 cannot carry this adapter's packets: {why}"
  | .quic problem => s!"quic: {problem}"
  | .quicWrite problem => s!"writing the request: {problem}"
  | .quicRead problem => s!"reading the tunnel's stream: {problem}"
  | .h3 problem => s!"http/3: {problem.text}"
  | .goingAway => "the endpoint is shutting the connection down (GOAWAY)"

/-- Whether this is something on the way refusing the handshake. -/
def ConnectError.isBlocked : ConnectError → Bool
  | .handshakeCut .. | .h3Unanswered .. => true
  | _ => false

/-- How much of a span has passed, in milliseconds. -/
def elapsed (mark : Instant) : Attempt ConnectError ℕ := do
  let now ← Attempt.now
  return Duration.asMillis (now - mark)

/-- What another library reports, in the words of this one. -/
def reported {ε α : Type} (words : ε → ConnectError) (f : Future (Except ε α)) :
    Attempt ConnectError α := ExceptT.mk do
  match ← f with
  | .ok a => return .ok a
  | .error problem => return .error (words problem)

/-- What another library reports at once. -/
def checked (words : String → ConnectError) (r : Except String Unit) :
    Attempt ConnectError Unit :=
  reported words (pure r)

lemma elapsed_ends (mark : Instant) : (elapsed mark).run.Ends 0 :=
  Attempt.ends_bind Attempt.ends_now fun _ => Attempt.ends_pure _

lemma checked_ends (words : String → ConnectError) (r : Except String Unit) :
    (checked words r).run.Ends 0 := by
  refine Future.Ends.next (Future.Ends.pure r) fun r => ?_
  cases r <;> exact .pure _

/-! ### HTTP/3 -/

namespace Quic

def HANDSHAKE_WAIT : Duration := .secs 4

/-- How long SETTINGS and the answer to the CONNECT may take together. -/
def EXCHANGE_WAIT : Duration := .secs 4

/-- How long the path is given to make room for a full packet, and how often it is looked at. -/
def PATH_WAIT : Duration := .secs 2
def PATH_POLL : Duration := .millis 20

/-- What is met on the way to an HTTP/3 tunnel: what this machine and the endpoint do, by when. -/
structure Endpoint where
  tls : Except String Unit
  crypto : Except String Unit
  socket : Except String Unit
  bound : Except String Unit
  begun : Except String Unit
  connecting : Future (Except String Unit)
  openUni : Future (Except String Unit)
  preface : Future (Except String Unit)
  settings : Future (Option Http3.PeerSettings)
  openBi : Future (Except String ℕ)
  request : Future (Except String Unit)
  answer : Future (List (List UInt8) × Ending)
  ended : Instant → Option Ended
  closeReason : Instant → Option String
  maxDatagramSize : Instant → Option ℕ

variable (c : Clock) (q : Endpoint) (hello : Hello)

/-- The handshake, for as long as it may take. -/
def handshake : Attempt ConnectError Unit := ExceptT.mk do
  match ← c.timeout HANDSHAKE_WAIT q.connecting with
  | some (.ok ()) => return .ok ()
  | some (.error problem) => return .error (.quicUnavailable problem)
  | none => return .error (.quicUnavailable "no answer within 4 s")

/-- The endpoint's SETTINGS, or why they will not come. -/
def offered : Attempt ConnectError Http3.PeerSettings := ExceptT.mk do
  match ← q.settings with
  | some settings => return .ok settings
  | none =>
    let now ← Future.now
    return .error (((q.closeReason now).map ConnectError.quic).getD (.h3 .controlClosed))

/-- The answer to the CONNECT, read off the request stream. -/
def response [StatusCode] : Attempt ConnectError ℕ := ExceptT.mk do
  let (chunks, ending) ← q.answer
  match readResponse .new chunks ending with
  | some (.ok status) => return .ok status
  | some (.error (.refused problem)) => return .error problem
  | some (.error .panic) => Future.never
  | none => Future.never

/-- What the exchange comes to. -/
structure Exchanged where
  streamId : ℕ
  status : ℕ
  settingsMs : ℕ
  mark : Instant

/-- SETTINGS both ways, and then the request. -/
def exchange [StatusCode] : Attempt ConnectError Exchanged := do
  let mark ← Attempt.now
  reported .quic q.openUni
  reported .quicWrite q.preface
  let offered ← offered q
  let settingsMs ← elapsed mark
  if !offered.h3Datagram then throw (.h3Unfit "the endpoint does not offer HTTP datagrams")
  else if !offered.extendedConnect then
    throw (.h3Unfit "the endpoint does not offer extended CONNECT")
  else do
    let mark ← Attempt.now
    let streamId ← reported .quic q.openBi
    reported .quicWrite q.request
    let status ← response q
    return ⟨streamId, status, settingsMs, mark⟩

/-- The exchange, for as long as it may take. What the endpoint's streams recorded explains a
failure better than the error it caused. -/
def exchanged [StatusCode] : Attempt ConnectError Exchanged := ExceptT.mk do
  match ← c.timeout EXCHANGE_WAIT (exchange q).run with
  | some (.ok exchanged) => return .ok exchanged
  | some (.error problem) =>
    let now ← Future.now
    return .error (((q.ended now).map Ended.error).getD problem)
  | none => return .error (.h3Unanswered hello.sni hello.handshake.name)

/-- Every look at the path is later than the one before. -/
lemma later_fires {now : Instant} : now < c.fires (now + PATH_POLL) :=
  Nat.lt_of_lt_of_le (Nat.lt_add_of_pos_right (by decide)) (Nat.le_add_right _ _)

/-- The path, looked at until it fits a datagram of so many bytes. -/
def room (needed : ℕ) (deadline : Instant) : Loop Instant (Instant × Except ConnectError Unit) where
  body now :=
    match q.maxDatagramSize now with
    | none => .inr (now, .error (.h3Unfit "the endpoint takes no datagrams"))
    | some room =>
      if needed ≤ room then .inr (now, .ok ())
      else
        match q.closeReason now with
        | some lost => .inr (now, .error (.quic lost))
        | none =>
          if deadline ≤ now then
            .inr (now, .error (.h3Unfit
              s!"the path takes {room}-byte datagrams, and a full packet needs {needed}"))
          else .inl (c.fires (now + PATH_POLL))
  measure now := deadline - now
  lowers {now now'} h := by
    split at h
    · cases h
    · split at h
      · cases h
      · split at h
        · cases h
        · split at h
          · cases h
          · next hbefore =>
            cases h
            exact Nat.sub_lt_sub_left (Nat.lt_of_not_le hbefore) (later_fires c)

/-- The looks at the path go forward. -/
lemma room_later (needed : ℕ) (deadline now : Instant) :
    now ≤ ((room c q needed deadline).run now).1 := by
  refine (room c q needed deadline).run_rule (fun now said => now ≤ said.1)
    (fun now said hstop => ?_) (fun now now' said hstep ih => ?_) now
  · simp only [room] at hstop
    split at hstop
    · cases hstop
      exact Nat.le_refl _
    · split at hstop
      · cases hstop
        exact Nat.le_refl _
      · split at hstop
        · cases hstop
          exact Nat.le_refl _
        · split at hstop
          · cases hstop
            exact Nat.le_refl _
          · cases hstop
  · simp only [room] at hstep
    split at hstep
    · cases hstep
    · split at hstep
      · cases hstep
      · split at hstep
        · cases hstep
        · split at hstep
          · cases hstep
          · cases hstep
            exact Nat.le_trans (later_fires c).le ih

def waitForRoom (needed : ℕ) : Attempt ConnectError Unit := ExceptT.mk
  { ready := fun now => some ((room c q needed (now + PATH_WAIT)).run now)
    later := fun {t t' said} h => by
      have hlater := room_later c q needed (t + PATH_WAIT) t
      rw [Option.some_inj] at h
      rw [h] at hlater
      exact hlater }

/-- A tunnel over HTTP/3: the stream its datagrams belong to, and how long each stage took. -/
structure Opened where
  streamId : ℕ
  quicMs : ℕ
  settingsMs : ℕ
  connectMs : ℕ
  deriving DecidableEq

/-- Open the tunnel: the handshake, SETTINGS both ways, the CONNECT, and the wait for room. -/
def connect [StatusCode] (identity : Warp.Identity) : Attempt ConnectError Opened := do
  if (Parser.parse identity.endpointH3V4).isNone then throw (.badEndpoint identity.endpointH3V4)
  else do
    checked .tlsSetup q.tls
    checked (fun problem =>
      .quicUnavailable s!"the TLS setup cannot run inside QUIC: {problem}") q.crypto
    checked .io q.socket
    checked .io q.bound
    let mark ← Attempt.now
    checked .quicUnavailable q.begun
    handshake c q
    let quicMs ← elapsed mark
    let exchanged ← exchanged c q hello
    if !StatusCode.isSuccess exchanged.status then throw (.h3Refused exchanged.status)
    else do
      waitForRoom c q (hello.largestPacket + Http3.datagramOverhead exchanged.streamId)
      let connectMs ← elapsed exchanged.mark
      return ⟨exchanged.streamId, quicMs, exchanged.settingsMs, connectMs⟩

/-! ### How long it takes -/

section

variable {c} {slack : ℕ} (hc : c.Keeps slack)

include hc

lemma handshake_ends : (handshake c q).run.Ends (HANDSHAKE_WAIT + slack) := by
  refine Future.Ends.next (Clock.timeout_ends hc HANDSHAKE_WAIT q.connecting) fun r => ?_
  obtain _ | _ | _ := r <;> exact .pure _

lemma exchanged_ends [StatusCode] : (exchanged c q hello).run.Ends (EXCHANGE_WAIT + slack) := by
  refine Future.Ends.next (Clock.timeout_ends hc EXCHANGE_WAIT (exchange q).run) fun r => ?_
  obtain _ | _ | _ := r
  · exact .pure _
  · exact fun t => ⟨t, _, rfl, Nat.le_refl t⟩
  · exact .pure _

/-- The last look at the path is not long after the wait is over. -/
lemma room_ends (needed : ℕ) (deadline now : Instant) (hnow : now ≤ deadline) :
    ((room c q needed deadline).run now).1 ≤ deadline + PATH_POLL + slack := by
  refine (room c q needed deadline).run_rule
    (fun now said => now ≤ deadline + PATH_POLL + slack → said.1 ≤ deadline + PATH_POLL + slack)
    (fun now said hstop hlate => ?_) (fun now now' said hstep ih _ => ?_) now
    (Nat.le_trans hnow (by rw [Nat.add_assoc]; exact Nat.le_add_right _ _))
  · simp only [room] at hstop
    split at hstop
    · cases hstop
      exact hlate
    · split at hstop
      · cases hstop
        exact hlate
      · split at hstop
        · cases hstop
          exact hlate
        · split at hstop
          · cases hstop
            exact hlate
          · cases hstop
  · simp only [room] at hstep
    split at hstep
    · cases hstep
    · split at hstep
      · cases hstep
      · split at hstep
        · cases hstep
        · split at hstep
          · cases hstep
          · next hbefore =>
            cases hstep
            have hfires := Clock.fires_le hc (now + PATH_POLL)
            have hlt : now < deadline := Nat.lt_of_not_le hbefore
            exact ih (Nat.le_trans hfires (Nat.add_le_add_right
              (Nat.add_le_add_right hlt.le PATH_POLL) slack))

lemma waitForRoom_ends (needed : ℕ) :
    (waitForRoom c q needed).run.Ends (PATH_WAIT + PATH_POLL + slack) := fun t => by
  have hends := room_ends q hc needed (t + PATH_WAIT) t (Nat.le_add_right t PATH_WAIT)
  have hready : (waitForRoom c q needed).run.ready t =
      some ((room c q needed (t + PATH_WAIT)).run t) := rfl
  generalize (room c q needed (t + PATH_WAIT)).run t = said at hends hready
  obtain ⟨ready, said⟩ := said
  rw [Nat.add_assoc t PATH_WAIT PATH_POLL, Nat.add_assoc t (PATH_WAIT + PATH_POLL) slack] at hends
  refine ⟨ready, said, ?_, ?_⟩
  · exact hready
  · exact hends

/-- How long it takes at the most to open a tunnel over HTTP/3 or to find that it does not open. -/
def OPENING (slack : Duration) : Duration :=
  (HANDSHAKE_WAIT + slack) + ((EXCHANGE_WAIT + slack) + (PATH_WAIT + PATH_POLL + slack))

omit hc in
/-- What bounds the stages bounds the whole. -/
lemma connect_bound [StatusCode] (identity : Warp.Identity) {n₁ n₂ n₃ : ℕ}
    (hhandshake : (handshake c q).run.Ends n₁) (hexchanged : (exchanged c q hello).run.Ends n₂)
    (hroom : ∀ needed, (waitForRoom c q needed).run.Ends n₃) :
    (connect c q hello identity).run.Ends (n₁ + (n₂ + n₃)) := by
  have hnext {α β : Type} {x : Attempt ConnectError α} {f : α → Attempt ConnectError β} {n : ℕ}
      (hx : x.run.Ends 0) (hf : ∀ a, (f a).run.Ends n) : (x >>= f).run.Ends n :=
    (Attempt.ends_bind hx hf).mono (Nat.zero_add n).le
  unfold connect
  split
  · exact (Attempt.ends_throw _).mono (Nat.zero_le _)
  · refine hnext (checked_ends _ _) fun _ => hnext (checked_ends _ _) fun _ => ?_
    refine hnext (checked_ends _ _) fun _ => hnext (checked_ends _ _) fun _ => ?_
    refine hnext Attempt.ends_now fun _ => hnext (checked_ends _ _) fun _ => ?_
    refine Attempt.ends_bind hhandshake fun _ => hnext (elapsed_ends _) fun _ => ?_
    refine Attempt.ends_bind hexchanged fun _ => ?_
    split
    · exact (Attempt.ends_throw _).mono (Nat.zero_le _)
    · refine Attempt.ends_bind (m := 0) (hroom _) fun _ => ?_
      exact Attempt.ends_bind (elapsed_ends _) fun _ => Attempt.ends_pure _

/-- **HTTP/3 opens or it does not**, in a bounded time, whatever the endpoint does. -/
lemma connect_ends [StatusCode] (identity : Warp.Identity) :
    (connect c q hello identity).run.Ends (OPENING slack) :=
  connect_bound q hello identity (handshake_ends q hc) (exchanged_ends q hello hc)
    (waitForRoom_ends q hc)

end

/-! ### What an open tunnel had to have -/

variable {c} {q} {hello}

lemma elapsed_ok {mark t t' : Instant} {ms : ℕ}
    (h : (elapsed mark).run.ready t = some (t', .ok ms)) : t' = t := by
  cases h
  rfl

lemma reported_ok {ε α : Type} {words : ε → ConnectError} {f : Future (Except ε α)}
    {t t' : Instant} {a : α} (h : (reported words f).run.ready t = some (t', .ok a)) :
    f.ready t = some (t', .ok a) := by
  obtain ⟨t₁, r, hf, hr⟩ := Future.bind_eq.1 h
  cases r <;> cases hr
  exact hf

lemma checked_ok {words : String → ConnectError} {r : Except String Unit} {t t' : Instant}
    {a : Unit} (h : (checked words r).run.ready t = some (t', .ok a)) : t' = t := by
  cases reported_ok h
  rfl

lemma now_ok {t t' now : Instant}
    (h : (Attempt.now : Attempt ConnectError ℕ).run.ready t = some (t', .ok now)) :
    t' = t ∧ now = t := by
  cases h
  exact ⟨rfl, rfl⟩

lemma offered_ok {t t' : Instant} {settings : Http3.PeerSettings}
    (h : (offered q).run.ready t = some (t', .ok settings)) :
    q.settings.ready t = some (t', some settings) := by
  obtain ⟨t₁, r, hf, hr⟩ := Future.bind_eq.1 h
  cases r <;> cases hr
  exact hf

/-- The status is the one the answer tells. -/
lemma response_ok [StatusCode] {t t' : Instant} {status : ℕ}
    (h : (response q).run.ready t = some (t', .ok status)) :
    ∃ chunks ending, q.answer.ready t = some (t', (chunks, ending)) ∧
      Responds chunks.flatten status := by
  obtain ⟨t₁, ⟨chunks, ending⟩, hf, hr⟩ := Future.bind_eq.1 h
  have htold (status : ℕ) := (readResponse_iff chunks ending).1 status
  dsimp only at hr
  generalize readResponse .new chunks ending = said at hr htold
  obtain _ | ⟨(problem | _) | _⟩ := said <;> cases hr
  exact ⟨chunks, ending, hf, (htold status).1 rfl⟩

/-- What an exchange that succeeds comes to: the request is begun once both are offered, and its
answer has a status. -/
lemma exchange_ok [StatusCode] {t t' : Instant} {exchanged : Exchanged}
    (h : (exchange q).run.ready t = some (t', .ok exchanged)) :
    ∃ t₁ offered begun sent chunks ending, t ≤ t₁ ∧
      q.settings.ready t₁ = some (offered, some ⟨true, true⟩) ∧
      q.openBi.ready offered = some (begun, .ok exchanged.streamId) ∧
      q.request.ready begun = some (sent, .ok ()) ∧
      q.answer.ready sent = some (t', (chunks, ending)) ∧
      Responds chunks.flatten exchanged.status := by
  unfold exchange at h
  obtain ⟨u₁, mark, h₁, h⟩ := Attempt.bind_ok.1 h
  obtain ⟨u₂, _, h₂, h⟩ := Attempt.bind_ok.1 h
  obtain ⟨u₃, _, h₃, h⟩ := Attempt.bind_ok.1 h
  obtain ⟨u₄, settings, h₄, h⟩ := Attempt.bind_ok.1 h
  obtain ⟨u₅, settingsMs, h₅, h⟩ := Attempt.bind_ok.1 h
  split at h
  · cases h
  · next hdatagram =>
    split at h
    · cases h
    · next hconnect =>
      obtain ⟨u₆, mark', h₆, h⟩ := Attempt.bind_ok.1 h
      obtain ⟨u₇, streamId, h₇, h⟩ := Attempt.bind_ok.1 h
      obtain ⟨u₈, _, h₈, h⟩ := Attempt.bind_ok.1 h
      obtain ⟨u₉, status, h₉, h⟩ := Attempt.bind_ok.1 h
      obtain ⟨chunks, ending, hanswer, hresponds⟩ := response_ok h₉
      cases h
      have hboth : settings = ⟨true, true⟩ := by
        obtain ⟨datagram, extended⟩ := settings
        simp_all
      have hopened := Future.later _ (reported_ok h₂)
      have hpreface := Future.later _ (reported_ok h₃)
      obtain ⟨rfl, -⟩ := now_ok h₁
      obtain rfl := elapsed_ok h₅
      obtain ⟨rfl, -⟩ := now_ok h₆
      refine ⟨u₃, u₆, u₇, u₈, chunks, ending, ?_, ?_, reported_ok h₇, reported_ok h₈, hanswer,
        hresponds⟩
      · exact Nat.le_trans hopened hpreface
      · rw [← hboth]
        exact offered_ok h₄

lemma exchanged_ok [StatusCode] {t t' : Instant} {result : Exchanged}
    (h : (exchanged c q hello).run.ready t = some (t', .ok result)) :
    (exchange q).run.ready t = some (t', .ok result) := by
  obtain ⟨t₁, r, hf, hr⟩ := Future.bind_eq.1 h
  obtain _ | _ | _ := r
  · cases hr
  · obtain ⟨t₂, now, -, hnow⟩ := Future.bind_eq.1 hr
    cases hnow
  · cases hr
    exact Clock.timeout_some hf

/-- The path has the room when the wait for it is over. -/
lemma waitForRoom_ok {needed : ℕ} {t t' : Instant}
    (h : (waitForRoom c q needed).run.ready t = some (t', .ok ())) :
    ∃ room, q.maxDatagramSize t' = some room ∧ needed ≤ room := by
  have hready : (room c q needed (t + PATH_WAIT)).run t = (t', .ok ()) := Option.some.inj h
  have hrule := (room c q needed (t + PATH_WAIT)).run_rule
    (fun _ said => said.2 = .ok () → ∃ room, q.maxDatagramSize said.1 = some room ∧ needed ≤ room)
    (fun now said hstop hok => ?_) (fun now now' said hstep ih => ih) t
  · rw [hready] at hrule
    exact hrule rfl
  · simp only [room] at hstop
    split at hstop
    · cases hstop
      cases hok
    · next size hsize =>
      split at hstop
      · next hfits =>
        cases hstop
        exact ⟨size, hsize, hfits⟩
      · split at hstop
        · cases hstop
          cases hok
        · split at hstop
          · cases hstop
            cases hok
          · cases hstop

lemma connect_ok [StatusCode] {identity : Warp.Identity} {t t' : Instant} {opened : Opened}
    (h : (connect c q hello identity).run.ready t = some (t', .ok opened)) :
    ∃ t₁ t₂ result, t ≤ t₁ ∧ t₂ ≤ t' ∧ result.streamId = opened.streamId ∧
      (exchange q).run.ready t₁ = some (t₂, .ok result) ∧
      200 ≤ result.status ∧ result.status < 300 ∧
      (waitForRoom c q (hello.largestPacket +
        Http3.datagramOverhead opened.streamId)).run.ready t₂ = some (t', .ok ()) := by
  unfold connect at h
  split at h
  · cases h
  · obtain ⟨u₁, _, h₁, h⟩ := Attempt.bind_ok.1 h
    obtain ⟨u₂, _, h₂, h⟩ := Attempt.bind_ok.1 h
    obtain ⟨u₃, _, h₃, h⟩ := Attempt.bind_ok.1 h
    obtain ⟨u₄, _, h₄, h⟩ := Attempt.bind_ok.1 h
    obtain ⟨u₅, mark, h₅, h⟩ := Attempt.bind_ok.1 h
    obtain ⟨u₆, _, h₆, h⟩ := Attempt.bind_ok.1 h
    obtain ⟨u₇, _, h₇, h⟩ := Attempt.bind_ok.1 h
    obtain ⟨u₈, quicMs, h₈, h⟩ := Attempt.bind_ok.1 h
    obtain ⟨u₉, result, h₉, h⟩ := Attempt.bind_ok.1 h
    split at h
    · cases h
    · next hsuccess =>
      obtain ⟨v₁, _, hroom, h⟩ := Attempt.bind_ok.1 h
      obtain ⟨v₂, connectMs, hv₂, h⟩ := Attempt.bind_ok.1 h
      have hlast := elapsed_ok hv₂
      cases h
      subst hlast
      have hhandshake := Future.later _ h₇
      have hwait := Future.later _ hroom
      obtain rfl := checked_ok h₁
      obtain rfl := checked_ok h₂
      obtain rfl := checked_ok h₃
      obtain rfl := checked_ok h₄
      obtain ⟨rfl, -⟩ := now_ok h₅
      obtain rfl := checked_ok h₆
      obtain rfl := elapsed_ok h₈
      have hstatus : StatusCode.isSuccess result.status = true := by simpa using hsuccess
      obtain ⟨hlow, hhigh⟩ := StatusCode.isSuccess_iff.1 hstatus
      exact ⟨_, _, result, hhandshake, hwait, rfl, exchanged_ok h₉, hlow, hhigh, hroom⟩

/-- **A tunnel over HTTP/3 that opened can carry every packet of the adapter**: the endpoint had
offered both of what it takes before the request was begun and answered the request with a success,
and once the tunnel is open a datagram of any packet up to the largest fits the path. -/
theorem opened_carries [StatusCode] {identity : Warp.Identity} {t t' : Instant} {opened : Opened}
    (h : (connect c q hello identity).run.ready t = some (t', .ok opened)) :
    ∃ t₁ offered begun sent answered chunks ending status room, t ≤ t₁ ∧
      q.settings.ready t₁ = some (offered, some ⟨true, true⟩) ∧
      q.openBi.ready offered = some (begun, .ok opened.streamId) ∧ offered ≤ begun ∧
      q.request.ready begun = some (sent, .ok ()) ∧ begun ≤ sent ∧
      q.answer.ready sent = some (answered, (chunks, ending)) ∧ answered ≤ t' ∧
      Responds chunks.flatten status ∧ 200 ≤ status ∧ status < 300 ∧
      q.maxDatagramSize t' = some room ∧
      ∀ packet, packet.length ≤ hello.largestPacket →
        (Http3.datagram opened.streamId packet).length ≤ room := by
  obtain ⟨u, v, result, hu, hv, hid, hexchange, hlow, hhigh, hroom⟩ := connect_ok h
  obtain ⟨t₁, offered, begun, sent, chunks, ending, ht₁, hsettings, hopen, hrequest, hanswer,
    hresponds⟩ := exchange_ok hexchange
  obtain ⟨room, hsize, hfits⟩ := waitForRoom_ok hroom
  rw [hid] at hopen
  refine ⟨t₁, offered, begun, sent, v, chunks, ending, result.status, room, Nat.le_trans hu ht₁,
    hsettings, hopen, Future.later _ hopen, hrequest, Future.later _ hrequest, hanswer, hv,
    hresponds, hlow, hhigh, hsize, fun packet hpacket => ?_⟩
  rw [Http3.length_datagram]
  exact Nat.le_trans (Nat.add_le_add_right hpacket _) hfits

/-- An endpoint that answers the CONNECT with 200, on a path that has the room after a while. -/
def welcoming : Endpoint where
  tls := .ok ()
  crypto := .ok ()
  socket := .ok ()
  bound := .ok ()
  begun := .ok ()
  connecting := .after (Duration.millis 61) (.ok ())
  openUni := pure (.ok ())
  preface := pure (.ok ())
  settings := .after (Duration.millis 1) (some ⟨true, true⟩)
  openBi := pure (.ok 0)
  request := pure (.ok ())
  answer := .after (Duration.millis 34) ([[1, 3], [0, 0, 0xd9]], .silent)
  ended _ := none
  closeReason _ := none
  maxDatagramSize now := some (if now < Duration.millis 130 then 1170 else 1400)

theorem opened_carries_welcoming :
    ∃ t₁ offered begun sent answered chunks ending status room, 0 ≤ t₁ ∧
      welcoming.settings.ready t₁ = some (offered, some ⟨true, true⟩) ∧
      welcoming.openBi.ready offered = some (begun, .ok 0) ∧ offered ≤ begun ∧
      welcoming.request.ready begun = some (sent, .ok ()) ∧ begun ≤ sent ∧
      welcoming.answer.ready sent = some (answered, (chunks, ending)) ∧
      answered ≤ Duration.millis 136 ∧ Responds chunks.flatten status ∧ 200 ≤ status ∧
      status < 300 ∧ welcoming.maxDatagramSize (Duration.millis 136) = some room ∧
      ∀ packet, packet.length ≤ 1280 → (Http3.datagram 0 packet).length ≤ room :=
  letI := StatusCode.documented
  have hopened : (connect ⟨fun _ => 0⟩ welcoming ⟨.fronted, none, 1280⟩ Warp.device).run.ready 0 =
      some (Duration.millis 136, .ok ⟨0, 61, 1, 74⟩) := by
    decide +kernel
  opened_carries hopened

end Quic

/-! ### HTTP/2 -/

namespace Tcp

/-- An error of the session: whether it is an end of file, and its text. -/
structure IoError where
  eof : Bool
  text : String

/-- What is met on the way to an HTTP/2 tunnel. -/
structure Endpoint where
  tls : Except String Unit
  tcp : Future (Except String Unit)
  nodelay : Except String Unit
  session : Future (Except IoError Unit)
  http2 : Future (Except String Unit)
  request : Except String Unit
  sent : Except String Unit
  response : Future (Except String ℕ)

/-- A tunnel over HTTP/2, and how long each stage took. -/
structure Opened where
  tcpMs : ℕ
  tlsMs : ℕ
  http2Ms : ℕ
  connectMs : ℕ
  deriving DecidableEq

/-- A handshake that ends in end of file said nothing about why. -/
def sessionError (hello : Hello) (e : IoError) : ConnectError :=
  if e.eof then .handshakeCut hello.sni hello.handshake.name else .io e.text

/-- Open the tunnel: TCP, TLS, HTTP/2, then the CONNECT. -/
def connect [StatusCode] (h : Endpoint) (hello : Hello) (identity : Warp.Identity) :
    Attempt ConnectError Opened := do
  checked .tlsSetup h.tls
  if (Parser.parse identity.endpointH2V4).isNone then throw (.badEndpoint identity.endpointH2V4)
  else do
    let mark ← Attempt.now
    reported .io h.tcp
    let tcpMs ← elapsed mark
    checked .io h.nodelay
    let mark ← Attempt.now
    reported (sessionError hello) h.session
    let tlsMs ← elapsed mark
    let mark ← Attempt.now
    reported .h2 h.http2
    let http2Ms ← elapsed mark
    checked .request h.request
    let mark ← Attempt.now
    checked .h2 h.sent
    let status ← reported .h2 h.response
    let connectMs ← elapsed mark
    if !StatusCode.isSuccess status then throw (.refused status)
    else return ⟨tcpMs, tlsMs, http2Ms, connectMs⟩

/-- Every stage succeeds, each within so long. -/
structure Opens (h : Endpoint) (identity : Warp.Identity) (tcp session http2 response : ℕ) :
    Prop where
  tls : h.tls = .ok ()
  address : (Parser.parse identity.endpointH2V4).isSome = true
  connects : ∀ t, ∃ t', h.tcp.ready t = some (t', .ok ()) ∧ t' ≤ t + tcp
  nodelay : h.nodelay = .ok ()
  shakes : ∀ t, ∃ t', h.session.ready t = some (t', .ok ()) ∧ t' ≤ t + session
  speaks : ∀ t, ∃ t', h.http2.ready t = some (t', .ok ()) ∧ t' ≤ t + http2
  request : h.request = .ok ()
  sent : h.sent = .ok ()
  accepts : ∀ t, ∃ t' status, h.response.ready t = some (t', .ok status) ∧ t' ≤ t + response ∧
    200 ≤ status ∧ status < 300

lemma reported_ready {ε α : Type} {words : ε → ConnectError} {f : Future (Except ε α)}
    {t t' : Instant} {a : α} (h : f.ready t = some (t', .ok a)) :
    (reported words f).run.ready t = some (t', .ok a) :=
  Future.bind_eq.2 ⟨t', .ok a, h, rfl⟩

lemma checked_ready {words : String → ConnectError} {r : Except String Unit} (h : r = .ok ())
    (t : Instant) : (checked words r).run.ready t = some (t, .ok ()) :=
  reported_ready (congrArg (fun r => some (t, r)) h)

/-- **Stages that succeed open a tunnel**, within the sum of what they take. -/
lemma connect_opens [StatusCode] {h : Endpoint} {identity : Warp.Identity}
    {tcp session http2 response : ℕ} (hopens : Opens h identity tcp session http2 response)
    (hello : Hello) (t : Instant) :
    ∃ t' opened, (connect h hello identity).run.ready t = some (t', .ok opened) ∧
      t' ≤ t + (tcp + session + http2 + response) := by
  obtain ⟨t₁, htcp, hle₁⟩ := hopens.connects t
  obtain ⟨t₂, hsession, hle₂⟩ := hopens.shakes t₁
  obtain ⟨t₃, hhttp2, hle₃⟩ := hopens.speaks t₂
  obtain ⟨t₄, status, hresponse, hle₄, hstatus⟩ := hopens.accepts t₃
  have hparse : ¬ (Parser.parse identity.endpointH2V4).isNone = true := by
    simpa using Option.isSome_iff_ne_none.1 hopens.address
  have hmark (t : Instant) :
      (Attempt.now : Attempt ConnectError ℕ).run.ready t = some (t, .ok t) := rfl
  have hspan (mark t : Instant) :
      (elapsed mark).run.ready t = some (t, .ok (Duration.asMillis (t - mark))) := rfl
  refine ⟨t₄, ⟨Duration.asMillis (t₁ - t), Duration.asMillis (t₂ - t₁), Duration.asMillis (t₃ - t₂),
    Duration.asMillis (t₄ - t₃)⟩, ?_, by omega⟩
  unfold connect
  refine Attempt.bind_ok.2 ⟨t, (), checked_ready hopens.tls t, ?_⟩
  rw [if_neg hparse]
  refine Attempt.bind_ok.2 ⟨t, t, hmark t, ?_⟩
  refine Attempt.bind_ok.2 ⟨t₁, (), reported_ready htcp, ?_⟩
  refine Attempt.bind_ok.2 ⟨t₁, _, hspan t t₁, ?_⟩
  refine Attempt.bind_ok.2 ⟨t₁, (), checked_ready hopens.nodelay t₁, ?_⟩
  refine Attempt.bind_ok.2 ⟨t₁, t₁, hmark t₁, ?_⟩
  refine Attempt.bind_ok.2 ⟨t₂, (), reported_ready hsession, ?_⟩
  refine Attempt.bind_ok.2 ⟨t₂, _, hspan t₁ t₂, ?_⟩
  refine Attempt.bind_ok.2 ⟨t₂, t₂, hmark t₂, ?_⟩
  refine Attempt.bind_ok.2 ⟨t₃, (), reported_ready hhttp2, ?_⟩
  refine Attempt.bind_ok.2 ⟨t₃, _, hspan t₂ t₃, ?_⟩
  refine Attempt.bind_ok.2 ⟨t₃, (), checked_ready hopens.request t₃, ?_⟩
  refine Attempt.bind_ok.2 ⟨t₃, t₃, hmark t₃, ?_⟩
  refine Attempt.bind_ok.2 ⟨t₃, (), checked_ready hopens.sent t₃, ?_⟩
  refine Attempt.bind_ok.2 ⟨t₄, status, reported_ready hresponse, ?_⟩
  refine Attempt.bind_ok.2 ⟨t₄, _, hspan t₃ t₄, ?_⟩
  rw [StatusCode.isSuccess_iff.2 hstatus]
  rfl

end Tcp

/-! ### Either -/

/-- A tunnel that opened, over the one carrier or the other. -/
inductive Opened
  | h2 (opened : Tcp.Opened)
  | h3 (opened : Quic.Opened)
  deriving DecidableEq

def Opened.stages : Opened → Stages
  | h2 opened => .h2 opened.tcpMs opened.tlsMs opened.http2Ms opened.connectMs
  | h3 opened => .h3 opened.quicMs opened.settingsMs opened.connectMs

/-- What an attempt meets: the timers, both ways to the endpoint, and the device it presents. -/
structure Way where
  clock : Clock
  quic : Quic.Endpoint
  tcp : Tcp.Endpoint
  identity : Warp.Identity

variable (w : Way) (hello : Hello)

def Way.overH2 [StatusCode] : Future (Except ConnectError Opened) :=
  (Opened.h2 <$> Tcp.connect w.tcp hello w.identity).run

def Way.overH3 [StatusCode] : Future (Except ConnectError Opened) :=
  (Opened.h3 <$> Quic.connect w.clock w.quic hello w.identity).run

/-- Open the tunnel over the carrier the run chose. Where HTTP/3 does not open and HTTP/2 is tried
after it, HTTP/3 is parked then, and why is said. -/
def connect [StatusCode] (choice : Choice) (parking : Parking) :
    Doing ConnectError (Except ConnectError Opened) := do
  let now ← Doing.lift Future.now
  match plan choice hello.handshake (parking.parked now) with
  | .only .h2 => Doing.lift (w.overH2 hello)
  | .only .h3 => Doing.lift (w.overH3 hello)
  | .h3ThenH2 => do
    match ← Doing.lift (w.overH3 hello) with
    | .ok opened => return .ok opened
    | .error problem => do
      Doing.act problem
      Doing.lift (w.overH2 hello)

variable {w} {hello} {choice : Choice} {parking : Parking} {t : Instant}

lemma connect_h2 [StatusCode] (h : plan choice hello.handshake (parking.parked t) = .only .h2) :
    (connect w hello choice parking).run t = ([], (w.overH2 hello).ready t) := by
  simp [connect, bind, Doing.lift, Future.now, h]

lemma connect_h3 [StatusCode] (h : plan choice hello.handshake (parking.parked t) = .only .h3) :
    (connect w hello choice parking).run t = ([], (w.overH3 hello).ready t) := by
  simp [connect, bind, Doing.lift, Future.now, h]

lemma connect_h3ThenH2 [StatusCode]
    (h : plan choice hello.handshake (parking.parked t) = .h3ThenH2) :
    (connect w hello choice parking).run t = match (w.overH3 hello).ready t with
      | none => ([], none)
      | some (t₁, .ok opened) => ([], some (t₁, .ok opened))
      | some (t₁, .error problem) => ([(t₁, problem)], (w.overH2 hello).ready t₁) := by
  cases hr : (w.overH3 hello).ready t with
  | none => simp [connect, bind, Doing.lift, Future.now, h, hr]
  | some said =>
    obtain ⟨t₁, problem | opened⟩ := said
    · simp [connect, bind, Doing.lift, Doing.act, Future.now, h, hr]
    · simp [connect, bind, pure, Doing.lift, Future.now, h, hr]

/-! ### Who is blamed -/

/-- What HTTP/3 fails with is no word about the device, and no handshake that TLS saw cut. -/
def OfH3 : ConnectError → Prop
  | .refused _ | .handshakeCut .. => False
  | _ => True

/-- What HTTP/2 fails with: a refusal is its own answer to the CONNECT, which was no success, and
silence after a QUIC handshake is not among it. -/
def OfH2 (h : Tcp.Endpoint) : ConnectError → Prop
  | .refused status => ¬(200 ≤ status ∧ status < 300) ∧
      ∃ asked answered, h.response.ready asked = some (answered, .ok status)
  | .h3Unanswered .. => False
  | _ => True

lemma fails_reported {ε α : Type} {P : ConnectError → Prop} {words : ε → ConnectError}
    (f : Future (Except ε α)) (hwords : ∀ problem, P (words problem)) :
    (reported words f).Fails P := by
  intro t t' e h
  obtain ⟨t₁, r, -, hr⟩ := Future.bind_eq.1 h
  cases r <;> cases hr
  exact hwords _

lemma fails_checked {P : ConnectError → Prop} {words : String → ConnectError}
    (r : Except String Unit) (hwords : ∀ problem, P (words problem)) : (checked words r).Fails P :=
  fails_reported _ hwords

lemma fails_elapsed {P : ConnectError → Prop} (mark : Instant) : (elapsed mark).Fails P :=
  Attempt.fails_now.bind fun _ => Attempt.fails_pure _

namespace Quic

variable {c : Clock} {q : Endpoint} {hello : Hello}

lemma fails_handshake : (handshake c q).Fails OfH3 := by
  intro t t' e h
  obtain ⟨t₁, r, -, hr⟩ := Future.bind_eq.1 h
  obtain _ | _ | _ := r <;> cases hr <;> exact trivial

lemma ofH3_ended (ended : Ended) : OfH3 ended.error := by
  cases ended <;> exact trivial

lemma fails_response [StatusCode] : (response q).Fails OfH3 := by
  intro t t' e h
  obtain ⟨t₁, ⟨chunks, ending⟩, -, hr⟩ := Future.bind_eq.1 h
  dsimp only at hr
  rw [readResponse_eq] at hr
  generalize verdict (Http3.frames (Http3.FrameReader.new.ahead chunks.flatten)) = said at hr
  obtain (_ | _) | (_ | _) := said
  · cases hr
  · cases hr
    exact trivial
  · cases ending <;> cases hr <;> exact trivial
  · cases hr

lemma fails_offered : (offered q).Fails OfH3 := by
  intro t t' e h
  obtain ⟨t₁, r, -, hr⟩ := Future.bind_eq.1 h
  cases r with
  | some settings => cases hr
  | none =>
    obtain ⟨t₂, now, -, hnow⟩ := Future.bind_eq.1 hr
    obtain ⟨-, he⟩ := Future.pure_eq.1 hnow
    cases he
    cases q.closeReason now <;> exact trivial

lemma fails_exchange [StatusCode] : (exchange q).Fails OfH3 := by
  unfold exchange
  refine Attempt.fails_now.bind fun _ => (fails_reported _ fun _ => trivial).bind fun _ => ?_
  refine (fails_reported _ fun _ => trivial).bind fun _ => fails_offered.bind fun _ => ?_
  refine (fails_elapsed _).bind fun _ => ?_
  split
  · exact Attempt.fails_throw trivial
  · split
    · exact Attempt.fails_throw trivial
    · refine Attempt.fails_now.bind fun _ => (fails_reported _ fun _ => trivial).bind fun _ => ?_
      refine (fails_reported _ fun _ => trivial).bind fun _ => fails_response.bind fun _ => ?_
      exact Attempt.fails_pure _

lemma fails_exchanged [StatusCode] : (exchanged c q hello).Fails OfH3 := by
  intro t t' e h
  obtain ⟨t₁, r, hf, hr⟩ := Future.bind_eq.1 h
  obtain _ | problem | _ := r
  · cases hr
    exact trivial
  · obtain ⟨t₂, now, -, hnow⟩ := Future.bind_eq.1 hr
    obtain ⟨-, he⟩ := Future.pure_eq.1 hnow
    cases he
    cases q.ended now with
    | none => exact fails_exchange _ _ _ (Clock.timeout_some hf)
    | some ended => exact ofH3_ended ended
  · cases hr

lemma fails_waitForRoom (needed : ℕ) : (waitForRoom c q needed).Fails OfH3 := by
  intro t t' e h
  have hready : (room c q needed (t + PATH_WAIT)).run t = (t', .error e) := Option.some.inj h
  have hrule := (room c q needed (t + PATH_WAIT)).run_rule
    (fun _ said => ∀ e, said.2 = .error e → OfH3 e)
    (fun now said hstop e he => ?_) (fun now now' said hstep ih => ih) t
  · rw [hready] at hrule
    exact hrule e rfl
  · simp only [room] at hstop
    split at hstop
    · cases hstop
      cases he
      trivial
    · split at hstop
      · cases hstop
        cases he
      · split at hstop
        · cases hstop
          cases he
          trivial
        · split at hstop
          · cases hstop
            cases he
            trivial
          · cases hstop

lemma fails_connect [StatusCode] (identity : Warp.Identity) :
    (connect c q hello identity).Fails OfH3 := by
  unfold connect
  split
  · exact Attempt.fails_throw trivial
  · refine (fails_checked _ fun _ => trivial).bind fun _ => ?_
    refine (fails_checked _ fun _ => trivial).bind fun _ => ?_
    refine (fails_checked _ fun _ => trivial).bind fun _ => ?_
    refine (fails_checked _ fun _ => trivial).bind fun _ => ?_
    refine Attempt.fails_now.bind fun _ => (fails_checked _ fun _ => trivial).bind fun _ => ?_
    refine fails_handshake.bind fun _ => (fails_elapsed _).bind fun _ => ?_
    refine fails_exchanged.bind fun _ => ?_
    split
    · exact Attempt.fails_throw trivial
    · refine (fails_waitForRoom _).bind fun _ => (fails_elapsed _).bind fun _ => ?_
      exact Attempt.fails_pure _

end Quic

namespace Tcp

lemma fails_connect [StatusCode] (h : Endpoint) (hello : Hello) (identity : Warp.Identity) :
    (connect h hello identity).Fails (OfH2 h) := by
  have hsession (e : IoError) : OfH2 h (sessionError hello e) := by
    unfold sessionError
    split <;> trivial
  unfold connect
  refine (fails_checked _ fun _ => trivial).bind fun _ => ?_
  split
  · exact Attempt.fails_throw trivial
  · refine Attempt.fails_now.bind fun _ => (fails_reported _ fun _ => trivial).bind fun _ => ?_
    refine (fails_elapsed _).bind fun _ => (fails_checked _ fun _ => trivial).bind fun _ => ?_
    refine Attempt.fails_now.bind fun _ => (fails_reported _ hsession).bind fun _ => ?_
    refine (fails_elapsed _).bind fun _ => Attempt.fails_now.bind fun _ => ?_
    refine (fails_reported _ fun _ => trivial).bind fun _ => (fails_elapsed _).bind fun _ => ?_
    refine (fails_checked _ fun _ => trivial).bind fun _ => Attempt.fails_now.bind fun _ => ?_
    refine (fails_checked _ fun _ => trivial).bind fun _ => ?_
    refine (fails_reported _ fun _ => trivial).bind fun hstatus => ?_
    refine (fails_elapsed _).bind fun _ => ?_
    split
    · next hrefused =>
      refine Attempt.fails_throw ⟨fun h => ?_, _, _, Quic.reported_ok hstatus⟩
      rw [StatusCode.isSuccess_iff.2 h] at hrefused
      cases hrefused
    · exact Attempt.fails_pure _

end Tcp

end Transport

end Masqr

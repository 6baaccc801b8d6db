import Masqr.Dns.Exchange
import Masqr.Dns.Server
import Masqr.Lib.Loop

/-!
The resolver at work: what a query comes to, and the conversation on one TCP connection.
-/

namespace Masqr.Dns

open Masqr.Lib

variable {reqwest : Reqwest}

/-! ### What a query comes to -/

/-- What the answer to a query depends on beside the query: the policy in force, whether its name is
watched for, who asks, the line's address for a destination, and what is outside. -/
structure Setting (reqwest : Reqwest) where
  installed : Option (Installed reqwest)
  watched : String → Bool
  asker : Option Asker
  lineSource : IpAddr → Option IpAddr
  network : Network reqwest

namespace Setting

variable (setting : Setting reqwest)

/-- A resolver that is asked directly is asked from the line's address for it. -/
def sourceOf (resolver : Resolver) : Option IpAddr :=
  match resolver.via with
  | .direct => setting.lineSource resolver.address
  | .tunnel => none

/-- The reply to a query: the upstream's own bytes, or that the query failed. -/
def answer (query : Message) : Option Message :=
  match readQuery query with
  | .error _ => failureReply query
  | .ok asked =>
    if setting.watched asked.name then failureReply query
    else
      match consult setting.installed query setting.asker with
      | none => failureReply query
      | some a =>
        match (a.upstream.ask setting.network query (setting.sourceOf a.resolver)).1 with
        | .error _ => failureReply query
        | .ok reply => some reply

end Setting

/-- A failure is a message of the query's length, and has its id. -/
lemma failureReply_belongs {query : Message} (h : HEADER_LEN ≤ query.length) :
    ∃ reply, failureReply query = some reply ∧ Belongs query reply := by
  refine ⟨_, if_neg (Nat.not_lt.2 h), h, ?_, ?_⟩
  · simp only [HEADER_LEN, List.length_append, List.length_take, List.length_drop,
      List.length_replicate, List.length_cons, List.length_nil] at h ⊢
    omega
  · have htwo : (query.take 2).length = 2 := by
      simp only [HEADER_LEN, List.length_take] at h ⊢
      omega
    simp only [List.append_assoc]
    rw [List.take_append_of_le_length (by rw [htwo]), List.take_take]
    rfl

/-- **Every query is answered**, whatever becomes of it, by a message that carries its id; what is
too short to have one is not. -/
theorem Setting.answer_belongs (setting : Setting reqwest) (query : Message) :
    (setting.answer query = none ∧ query.length < HEADER_LEN) ∨
      ∃ reply, setting.answer query = some reply ∧ Belongs query reply := by
  by_cases hshort : query.length < HEADER_LEN
  · have hread : readQuery query = .error (.truncated "header") := by
      simp [readQuery, readHeader, hshort, bind, Except.bind]
    refine .inl ⟨?_, hshort⟩
    unfold answer
    rw [hread]
    exact if_pos hshort
  · have hfailure := failureReply_belongs (Nat.le_of_not_lt hshort)
    refine .inr ?_
    unfold answer
    split
    · exact hfailure
    · split_ifs
      · exact hfailure
      · split
        · exact hfailure
        · split
          · exact hfailure
          · next reply hask => exact ⟨reply, rfl, ((ask_ok_iff _ _ _ _ _).1 hask).1⟩

/-! ### A conversation over TCP -/

/-- What is met on one connection: whether no permit is left for a query, what a query is answered
with, and whether writing the reply fails, by how many came before. -/
structure Conversation where
  busy : ℕ → Bool
  answer : ℕ → Message → Option Message
  breaks : ℕ → Bool

namespace Conversation

variable (c : Conversation)

/-- How many queries were answered, the pieces that are left, and the replies so far. -/
structure Turn where
  count : ℕ
  pieces : List (List UInt8)
  replies : List Message

/-- A query is read, answered and its reply written, or the conversation ends. -/
def next (s : Turn) : Turn ⊕ List Message :=
  match Incoming.take 2 s.pieces with
  | none => .inr s.replies
  | some (header, pieces) =>
    if ofBe 0 header < HEADER_LEN ∨ MAX_MESSAGE < ofBe 0 header then .inr s.replies
    else
      match Incoming.take (ofBe 0 header) pieces with
      | none => .inr s.replies
      | some (query, pieces) =>
        if c.busy s.count then .inr s.replies
        else
          match c.answer s.count query with
          | none => .inr s.replies
          | some reply =>
            if 65535 < reply.length ∨ c.breaks s.count then .inr s.replies
            else .inl ⟨s.count + 1, pieces, s.replies ++ [reply]⟩

/-- The next query is taken off the stream, and is answered. -/
lemma next_inl {s s' : Turn} (h : c.next s = .inl s') : ∃ query reply,
    s.pieces.flatten = frame query ++ s'.pieces.flatten ∧
    HEADER_LEN ≤ query.length ∧ query.length ≤ MAX_MESSAGE ∧ c.busy s.count = false ∧
    c.answer s.count query = some reply ∧ reply.length ≤ 65535 ∧ c.breaks s.count = false ∧
    s'.count = s.count + 1 ∧ s'.replies = s.replies ++ [reply] := by
  unfold next at h
  split at h
  · cases h
  next header pieces hheader =>
  obtain ⟨htwo, hflat⟩ := Incoming.take_some hheader
  split at h
  · cases h
  next hframed =>
  split at h
  · cases h
  next query rest hquery =>
  obtain ⟨hlength, hrest⟩ := Incoming.take_some hquery
  split at h
  · cases h
  next hbusy =>
  split at h
  · cases h
  next reply hanswer =>
  split at h
  · cases h
  next hwritten =>
  cases h
  refine ⟨query, reply, ?_, by omega, by omega, by simpa using hbusy, hanswer, by omega,
    by simp_all, rfl, rfl⟩
  rw [frame_of_announced htwo hlength, hflat, hrest, List.append_assoc]

lemma next_shorter {s s' : Turn} (h : c.next s = .inl s') :
    s'.pieces.flatten.length < s.pieces.flatten.length := by
  obtain ⟨query, reply, hflat, -⟩ := c.next_inl h
  have hframe : 0 < (frame query).length := by simp [frame]
  rw [hflat, List.length_append]
  omega

/-- One connection, read until it ends or is ended. -/
def loop : Loop Turn (List Message) where
  body := c.next
  measure s := s.pieces.flatten.length
  lowers := c.next_shorter

end Conversation

/-- The replies written to one connection, for the pieces its queries come in. -/
def converse (c : Conversation) (pieces : List (List UInt8)) : List Message :=
  c.loop.run ⟨0, pieces, []⟩

/-- A message of the length of a query. -/
def Fits (query : Message) : Prop := HEADER_LEN ≤ query.length ∧ query.length ≤ MAX_MESSAGE

instance (query : Message) : Decidable (Fits query) := inferInstanceAs (Decidable (_ ∧ _))

/-- A stream begins with no whole query. -/
def Spent (stream : List UInt8) : Prop := ∀ query, Fits query → ¬ frame query <+: stream

namespace Conversation

variable (c : Conversation)

/-- The replies to queries one after another, as far as the conversation goes. -/
def served : ℕ → List Message → List Message
  | _, [] => []
  | n, query :: later =>
    if c.busy n then []
    else
      match c.answer n query with
      | none => []
      | some reply =>
        if 65535 < reply.length ∨ c.breaks n then [] else reply :: served (n + 1) later

lemma next_spent {s : Turn} (h : Spent s.pieces.flatten) : c.next s = .inr s.replies := by
  unfold next
  split
  · rfl
  next header pieces hheader =>
  obtain ⟨htwo, hflat⟩ := Incoming.take_some hheader
  split
  · rfl
  next hframed =>
  split
  · rfl
  next query rest hquery =>
  obtain ⟨hlength, hrest⟩ := Incoming.take_some hquery
  refine absurd ?_ (h query ⟨by omega, by omega⟩)
  rw [frame_of_announced htwo hlength, hflat, hrest, ← List.append_assoc]
  exact List.prefix_append _ _

/-- A query at the front of the stream is the one that is answered. -/
lemma next_frame {s : Turn} {query : Message} {later : List UInt8} (hfits : Fits query)
    (h : s.pieces.flatten = frame query ++ later) : ∃ rest, rest.flatten = later ∧
      c.next s = if c.busy s.count then .inr s.replies
        else match c.answer s.count query with
        | none => .inr s.replies
        | some reply =>
          if 65535 < reply.length ∨ c.breaks s.count then .inr s.replies
          else .inl ⟨s.count + 1, rest, s.replies ++ [reply]⟩ := by
  have hlength : ofBe 0 (toBe 2 query.length) = query.length := by
    refine ofBe_frame ?_
    have := hfits.2
    unfold MAX_MESSAGE at this
    omega
  rw [frame, List.append_assoc] at h
  obtain ⟨pieces, hheader, hpieces⟩ := Incoming.take_of_append h
  obtain ⟨rest, hquery, hrest⟩ := Incoming.take_of_append hpieces
  rw [length_toBe] at hheader
  refine ⟨rest, hrest, ?_⟩
  have hframed : ¬ (query.length < HEADER_LEN ∨ MAX_MESSAGE < query.length) := by
    rintro (hlow | hhigh)
    · exact Nat.not_lt.2 hfits.1 hlow
    · exact Nat.not_lt.2 hfits.2 hhigh
  unfold next
  simp only [hheader, hlength, hframed, hquery, if_false]

lemma run_served {queries : List Message} {tail : List UInt8} (hfits : ∀ q ∈ queries, Fits q)
    (htail : Spent tail) {s : Turn} (h : s.pieces.flatten = queries.flatMap frame ++ tail) :
    c.loop.run s = s.replies ++ c.served s.count queries := by
  induction queries generalizing s with
  | nil =>
    rw [List.flatMap_nil, List.nil_append] at h
    rw [c.loop.run_stop (c.next_spent (h ▸ htail)), served, List.append_nil]
  | cons query later ih =>
    rw [List.flatMap_cons, List.append_assoc] at h
    obtain ⟨rest, hrest, hnext⟩ := c.next_frame (hfits query List.mem_cons_self) h
    unfold served
    split
    · next hbusy =>
      rw [if_pos hbusy] at hnext
      rw [c.loop.run_stop hnext, List.append_nil]
    next hbusy =>
    rw [if_neg hbusy] at hnext
    split
    · next hnone =>
      simp only [hnone] at hnext
      rw [c.loop.run_stop hnext, List.append_nil]
    next reply hreply =>
    simp only [hreply] at hnext
    split
    · next hends =>
      rw [if_pos hends] at hnext
      rw [c.loop.run_stop hnext, List.append_nil]
    next hends =>
    rw [if_neg hends] at hnext
    rw [c.loop.run_step hnext, ih (fun q hq => hfits q (List.mem_cons_of_mem _ hq)) hrest,
      List.append_assoc, List.singleton_append]

end Conversation

/-- A stream is whole queries with their lengths before them, and then no other. -/
structure Cut (stream : List UInt8) (queries : List Message) (tail : List UInt8) : Prop where
  fits : ∀ q ∈ queries, Fits q
  spent : Spent tail
  stream : stream = queries.flatMap frame ++ tail

lemma exists_cut (stream : List UInt8) : ∃ queries tail, Cut stream queries tail := by
  induction hn : stream.length using Nat.strong_induction_on generalizing stream with
  | _ n ih =>
    by_cases hspent : Spent stream
    · exact ⟨[], stream, by simp, hspent, rfl⟩
    · unfold Spent at hspent
      push Not at hspent
      obtain ⟨query, hfits, later, rfl⟩ := hspent
      have hshorter : later.length < n := by
        rw [← hn, List.length_append, frame, List.length_append, length_toBe]
        omega
      obtain ⟨queries, tail, hcut⟩ := ih _ hshorter later rfl
      refine ⟨query :: queries, tail, ?_, hcut.spent, ?_⟩
      · exact List.forall_mem_cons.2 ⟨hfits, hcut.fits⟩
      · rw [List.flatMap_cons, List.append_assoc, ← hcut.stream]

/-- **A client is answered as its queries come**: whatever pieces its stream is cut into, it is
written the replies to the queries in it, in order, as far as the conversation goes. -/
theorem converse_served (c : Conversation) (pieces : List (List UInt8)) :
    (∃ queries tail, Cut pieces.flatten queries tail) ∧
    ∀ queries tail, Cut pieces.flatten queries tail → converse c pieces = c.served 0 queries := by
  refine ⟨exists_cut _, fun queries tail hcut => ?_⟩
  rw [converse, c.run_served hcut.fits hcut.spent hcut.stream, List.nil_append]

/-- Nothing is no whole query. -/
lemma spent_nil : Spent [] := by
  rintro query - ⟨later, hlater⟩
  have hlength := congrArg List.length hlater
  rw [List.length_append, frame, List.length_append, length_toBe, List.length_nil] at hlength
  omega

/-- **The two ends of DNS over TCP fit together**: a query asked over TCP of a server like this one
comes back with what the server answers it with, whatever pieces either stream is cut into. -/
theorem askOverTcp_converse (network : Network reqwest) (c : Conversation) {target : SocketAddr}
    {source : Option IpAddr} {query reply : Message} {pieces : List (List UInt8)}
    (hfits : Fits query) (hreply : reply.length ≤ 65535) (hbusy : c.busy 0 = false)
    (hwritten : c.breaks 0 = false) (hanswer : c.answer 0 query = some reply)
    (hconnect : network.connect target source = .ok ()) (hsent : pieces.flatten = frame query)
    (hback : (network.stream target source (frame query)).whole =
      (converse c pieces).flatMap frame) :
    network.askOverTcp target source query = .ok reply := by
  have hcut : Cut pieces.flatten [query] [] :=
    ⟨List.forall_mem_singleton.2 hfits, spent_nil, by simp [hsent]⟩
  have hserved : converse c pieces = [reply] := by
    rw [converse, c.run_served hcut.fits hcut.spent hcut.stream]
    simp [Conversation.served, hbusy, hanswer, hwritten, Nat.not_lt.2 hreply]
  refine (askOverTcp_ok network target source query reply).2 ⟨hconnect, hfits.2, hreply, ?_⟩
  rw [hback, hserved]
  simp

/-- A server that fails every query. -/
def failing : Conversation := ⟨fun _ => false, fun _ query => failureReply query, fun _ => false⟩

/-- A network with that server behind it, where every byte is a piece of its own. -/
def bytewise : Network noHttps where
  udp _ _ _ := .error .silent
  connect _ _ := .ok ()
  stream _ _ sent :=
    ⟨((converse failing (sent.map fun b => [b])).flatMap frame).map fun b => [b], .silent⟩
  post _ _ _ := .timedOut

theorem askOverTcp_bytewise :
    bytewise.askOverTcp ⟨.v4 0x7f000001, 53⟩ none [0x12, 0x34, 1, 0, 0, 1, 0, 0, 0, 0, 0, 0] =
      .ok [0x12, 0x34, 0x81, 0x82, 0, 1, 0, 0, 0, 0, 0, 0] :=
  @askOverTcp_converse noHttps bytewise failing _ _ _ _
    ((frame [0x12, 0x34, 1, 0, 0, 1, 0, 0, 0, 0, 0, 0]).map fun b => [b]) (by decide) (by decide)
    rfl rfl rfl rfl rfl (by simp [bytewise, Incoming.whole, ← List.flatMap_def])

end Masqr.Dns

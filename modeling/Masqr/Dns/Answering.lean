import Mathlib
import Masqr.Dns.Server
import Masqr.Lib.Run

/-!
Many queries answered at the same time, and whether an answer overtakes its routes.

An answer to an address question is taken into the lease table; where that added an address,
the routes are refreshed under the routing lock; and then the reply goes out.
-/

namespace Masqr.Dns.Answering

open Masqr.Lib

section

variable (reqwest : Reqwest)

/-- What a call does next: its upstream is being asked, it owes a refresh of the routes, or the
reply is ready to go out. -/
inductive Pc
  | idle
  | asking (a : Asking reqwest)
  | owes (a : Asking reqwest) (reply : Message)
  | ready (a : Asking reqwest) (reply : Message)

/-- The core, the calls under way, and the addresses added to the lease table since the routes
were last refreshed, which nothing reads. -/
structure World where
  core : Core
  pcs : ℕ → Pc reqwest
  added : List IpAddr

end

inductive Label
  | ask (t : ℕ) (query : Message) (asker : Option Asker)
  | fail (t : ℕ)
  | replied (t : ℕ) (reply : Message) (walk : Walk (IpAddr × Lease)) (now : Instant)
  | install (t : ℕ)
  | finish (t : ℕ)

variable {reqwest : Reqwest}

def World.start (core : Core) : World reqwest := ⟨core, fun _ => .idle, []⟩

def World.put (w : World reqwest) (t : ℕ) (pc : Pc reqwest) : World reqwest :=
  { w with pcs := Function.update w.pcs t pc }

/-- The addresses of these records that nobody holds. -/
def fresh (core : Core) (found : List Record) : List IpAddr :=
  (found.map Record.address).filter fun a => decide (a ∉ core.leases.held)

/-- The answer is taken in. -/
def learn (w : World reqwest) (t : ℕ) (a : Asking reqwest) (reply : Message)
    (walk : Walk (IpAddr × Lease)) (now : Instant) : World reqwest :=
  let found := foundIn reply
  let r := w.core.leases.record walk a.asked.name found now
  let w' := w.put t (if r.1 then .owes a reply else .ready a reply)
  { w' with
    core := { w.core with leases := r.2 }
    added := w.added ++ fresh w.core found }

def step (installed : Option (Installed reqwest)) (w : World reqwest) :
    Label → Option (World reqwest)
  | .ask t query asker =>
    match w.pcs t with
    | .idle =>
      match consult installed query asker with
      | none => some w
      | some a => some (w.put t (.asking a))
    | _ => none
  | .fail t =>
    match w.pcs t with
    | .asking _ => some (w.put t .idle)
    | _ => none
  | .replied t reply walk now =>
    match w.pcs t with
    | .asking a =>
      if transactionId reply ≠ some a.asked.id then none
      else if a.asksForAddresses then some (learn w t a reply walk now)
      else some (w.put t (.ready a reply))
    | _ => none
  | .install t =>
    match w.pcs t with
    | .owes a reply => some { w.put t (.ready a reply) with
        core := w.core.routesChanged.2
        added := [] }
    | _ => none
  | .finish t =>
    match w.pcs t with
    | .ready _ _ => some (w.put t .idle)
    | _ => none

/-! ### What is asked of a return, and what decides it -/

/-- Of every routed answer to an IPv4 question that goes out, this holds of every IPv4 address
in its answer section. -/
def OfReturned (P : World reqwest → IpAddr → Prop) (w : World reqwest) : Label → Prop
  | .finish t =>
    match w.pcs t with
    | .ready a reply => (a.route = true ∧ a.asked.qtype = TYPE_A ∧ a.asked.qclass = CLASS_IN) →
        ∀ r ∈ answerSection reply, r.address.isIpv4 = true → P w r.address
    | _ => True
  | _ => True

/-- Its host route is installed. -/
def Routed (w : World reqwest) (a : IpAddr) : Prop := Core.hostRoute a ∈ w.core.routes.installed

/-- The routes were refreshed since the address came into the lease table, or the application
asks for its host route. -/
def Refreshed (w : World reqwest) (a : IpAddr) : Prop :=
  Core.hostRoute a ∈ w.core.asked ∨ (a ∈ w.core.leases.held ∧ a ∉ w.added)

/-- Fewer addresses are held after the step than the table may hold. -/
def Roomy (installed : Option (Installed reqwest)) (w : World reqwest) (l : Label) : Prop :=
  match step installed w l with
  | none => True
  | some w' => w'.core.leases.len < MAX_LEASES

instance (P : World reqwest → IpAddr → Prop) [∀ w a, Decidable (P w a)] (w : World reqwest) :
    (l : Label) → Decidable (OfReturned P w l)
  | .finish t => by unfold OfReturned; dsimp only; split <;> infer_instance
  | .ask .. | .fail .. | .replied .. | .install .. => isTrue trivial

instance (w : World reqwest) (a : IpAddr) : Decidable (Routed w a) :=
  inferInstanceAs (Decidable (_ ∈ _))

instance (installed : Option (Installed reqwest)) (w : World reqwest) (l : Label) :
    Decidable (Roomy installed w l) := by
  unfold Roomy
  split <;> infer_instance

/-! ### The invariant -/

/-- The rows are accepted, and the IPv4 host routes are those asked for and those of the leases
that were there when the routes were last refreshed. -/
structure Good (w : World reqwest) : Prop where
  accepted : w.core.Accepted
  routed : ∀ a, a.isIpv4 = true → (Routed w a ↔ Refreshed w a)

lemma Good.start {c : Core} (h : c.Accepted) (ha : c.Agrees) :
    Good (World.start c : World reqwest) :=
  ⟨h, fun a h4 => (Core.hostRoute_installed ha h4).trans (by simp [Refreshed, World.start])⟩

lemma Good.put {w : World reqwest} (h : Good w) (t : ℕ) (pc : Pc reqwest) : Good (w.put t pc) :=
  ⟨h.accepted, h.routed⟩

lemma Good.learn {w : World reqwest} (h : Good w) {t : ℕ} {a : Asking reqwest} {reply : Message}
    {walk : Walk (IpAddr × Lease)} {now : Instant}
    (hroom : (learn w t a reply walk now).core.leases.len < MAX_LEASES) :
    Good (learn w t a reply walk now) := by
  refine ⟨h.accepted, fun b h4 => (h.routed b h4).trans (or_congr Iff.rfl ?_)⟩
  have hheld := Leases.mem_record (a := b) hroom
  simp only [Answering.learn, World.put, List.mem_append, fresh, List.mem_filter, List.mem_map,
    decide_eq_true_eq, not_or]
  rw [hheld]
  constructor
  · rintro ⟨hb, hn⟩
    exact ⟨.inr hb, hn, fun hf => hf.2 hb⟩
  · rintro ⟨hf | hb, hn, hfresh⟩
    · by_contra hnot
      exact hfresh ⟨hf, fun hb => hnot ⟨hb, hn⟩⟩
    · exact ⟨hb, hn⟩

lemma Good.step {installed : Option (Installed reqwest)} {w w' : World reqwest} (h : Good w)
    {l : Label} (hroom : Roomy installed w l) (hs : step installed w l = some w') : Good w' := by
  unfold Roomy at hroom
  rw [hs] at hroom
  cases l with
  | ask t query asker =>
    simp only [Answering.step] at hs
    split at hs
    · split at hs
      · exact Option.some.inj hs ▸ h
      · exact Option.some.inj hs ▸ h.put t _
    · cases hs
  | fail t =>
    simp only [Answering.step] at hs
    split at hs
    · exact Option.some.inj hs ▸ h.put t _
    · cases hs
  | replied t reply walk now =>
    simp only [Answering.step] at hs
    split at hs
    · split_ifs at hs
      · obtain rfl := Option.some.inj hs
        exact h.learn hroom
      · exact Option.some.inj hs ▸ h.put t _
    · cases hs
  | install t =>
    simp only [Answering.step] at hs
    split at hs
    · obtain rfl := Option.some.inj hs
      refine ⟨Core.installUnion_accepted_again h.accepted, fun a h4 => ?_⟩
      have hagree := Core.hostRoute_installed (Core.installUnion_agrees h.accepted) h4
      exact hagree.trans (by simp [Refreshed, Core.routesChanged, Core.refreshRoutes])
    · cases hs
  | finish t =>
    simp only [Answering.step] at hs
    split at hs
    · exact Option.some.inj hs ▸ h.put t _
    · cases hs

lemma Good.ofReturned {w : World reqwest} (h : Good w) (l : Label) :
    OfReturned Routed w l ↔ OfReturned Refreshed w l := by
  cases l with
  | finish t =>
    simp only [OfReturned]
    split
    · refine imp_congr Iff.rfl (forall₂_congr fun r _ => ?_)
      exact ⟨fun hr h4 => (h.routed _ h4).mp (hr h4), fun hr h4 => (h.routed _ h4).mpr (hr h4)⟩
    · rfl
  | _ => rfl

/-- **No routed answer overtakes its routes exactly when the routes are refreshed, before each
return, since the addresses returned came into the lease table.** -/
theorem never_overtaken_iff {installed : Option (Installed reqwest)} {c : Core} (h : c.Accepted)
    (ha : c.Agrees) {labels : List Label} (hroom : Meets (step installed) (Roomy installed)
      (World.start c) labels) :
    Meets (step installed) (OfReturned Routed) (World.start c) labels ↔
      Meets (step installed) (OfReturned Refreshed) (World.start c) labels :=
  Meets.congr (I := Good) (fun _ _ _ hr hg hs => hg.step hr hs) (fun _ l hg => hg.ofReturned l) hroom
    (.start h ha)

/-! ### Two answers with one address -/

/-- What is asked for `a`: its IPv4 addresses. -/
def queryA : Message := [0, 1, 1, 0, 0, 1, 0, 0, 0, 0, 0, 0, 1, 0x61, 0, 0, 1, 0, 1]

/-- The answer: `104.16.0.1`, to be believed for a minute. -/
def replyA : Message := [0, 1, 0x81, 0x80, 0, 1, 0, 1, 0, 0, 0, 0, 1, 0x61, 0, 0, 1, 0, 1,
  0xc0, 12, 0, 1, 0, 1, 0, 0, 0, 60, 0, 4, 104, 16, 0, 1]

/-- Every name is answered by one resolver, and the answers are routed. -/
def routing : Option (Installed noHttps) :=
  ((Server.new none).prepare .asHeld
    ⟨[⟨"home", .plain, .v4 0xc0a80101, none, .direct⟩], [⟨.any, "home", [], true⟩]⟩).toOption

def idle : World noHttps := .start (.new ⟨fun _ => 0, fun _ => 0⟩ 0)

/-- The first answer is installed before the second is taken in. -/
theorem never_overtaken_in_turn :
    Meets (step routing) (OfReturned Routed) idle [.ask 0 queryA none, .ask 1 queryA none,
        .replied 0 replyA .asHeld 0, .install 0, .replied 1 replyA .asHeld 0, .finish 1, .finish 0] ↔
      Meets (step routing) (OfReturned Refreshed) idle [.ask 0 queryA none, .ask 1 queryA none,
        .replied 0 replyA .asHeld 0, .install 0, .replied 1 replyA .asHeld 0, .finish 1, .finish 0] :=
  never_overtaken_iff (fun _ => ⟨rfl, rfl⟩) (Core.new_agrees ..) (by decide +kernel)

/-- Both answers are taken in, the second changes nothing and is returned, and the first has
still to refresh the routes. -/
theorem answer_overtakes_route :
    Meets (step routing) (Roomy routing) idle [.ask 0 queryA none, .ask 1 queryA none,
        .replied 0 replyA .asHeld 0, .replied 1 replyA .asHeld 0, .finish 1] ∧
      ¬Meets (step routing) (OfReturned Routed) idle [.ask 0 queryA none, .ask 1 queryA none,
        .replied 0 replyA .asHeld 0, .replied 1 replyA .asHeld 0, .finish 1] := by
  decide +kernel

end Masqr.Dns.Answering

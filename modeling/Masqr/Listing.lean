import Mathlib
import Masqr.Control
import Masqr.Dns.Pinned
import Masqr.Written

/-!
The routed set as it is listed, and the listing sent back.
-/

namespace Masqr

open Masqr.Lib Masqr.Dns Masqr.Tun

namespace Tun

/-- A prefix no longer than its address. -/
def Prefix.Fits (p : Prefix) : Prop := ¬ whole p.1 < p.2

/-- Every prefix of a set is one that could be written. -/
def Writable (set : Prefixes) : Prop := ∀ p ∈ set, p.Fits

lemma hostRoute_fits (a : IpAddr) : (Core.hostRoute a).Fits := UInt8.lt_irrefl _

/-- What `apply` leaves was there before or was wanted. -/
lemma Writable.apply {table : RouteTable} {r : Routes} {wanted : Prefixes}
    (hr : Writable r.installed) (hw : Writable wanted) :
    Writable (r.apply table wanted).2.installed := by
  intro p hp
  obtain ⟨hp, -⟩ | ⟨hp, -⟩ := Routes.mem_apply.1 hp
  · exact hr p hp
  · exact hw p hp

/-- Asking for the set that is installed moves no row. -/
lemma Routes.apply_self (table : RouteTable) (r : Routes) :
    r.apply table r.installed = (.ok ⟨[], []⟩, r) := by
  have hnone : difference r.installed r.installed = [] :=
    List.eq_nil_iff_forall_not_mem.2 fun q hq => (mem_difference.1 hq).2 (mem_difference.1 hq).1
  unfold Routes.apply Routes.applying
  simp [hnone]

end Tun

namespace Control

variable {reqwest : Reqwest}

/-! ### Sets of prefixes -/

/-- Prefixes read one after another into a set. -/
lemma prefixes_foldlM {ps : List Prefix} (hps : ∀ p ∈ ps, p.Fits) (set : Prefixes) :
    (ps.map Prefix.text).foldlM (fun set one => (parsePrefix one).map set.insert) set =
      .ok (ps.foldl (fun set p => set.insert p) set) := by
  induction ps generalizing set with
  | nil => rfl
  | cons p ps ih =>
    obtain ⟨hp, hps⟩ := List.forall_mem_cons.1 hps
    rw [List.map_cons, List.foldlM_cons, parsePrefix_text, if_neg hp]
    exact ih hps _

lemma mem_foldl_insert {ps : List Prefix} {set : Prefixes} {q : Prefix} :
    q ∈ ps.foldl (fun set p => set.insert p) set ↔ q ∈ set ∨ q ∈ ps := by
  induction ps generalizing set with
  | nil => simp
  | cons p ps ih =>
    rw [List.foldl_cons, ih, Std.ExtTreeSet.mem_insert, Std.LawfulEqCmp.compare_eq_iff_eq,
      List.mem_cons, eq_comm, or_assoc, or_left_comm]

/-- **A set is read as it is listed.** -/
lemma prefixes_toList {set : Prefixes} (h : Writable set) :
    prefixes (set.toList.map Prefix.text) = .ok set := by
  rw [prefixes, prefixes_foldlM fun p hp => h p (Std.ExtTreeSet.mem_toList.1 hp)]
  refine congrArg Except.ok (Std.ExtTreeSet.ext_mem fun q => ?_)
  simp [mem_foldl_insert]

/-- A set that was read can be written. -/
lemma prefixes_writable {written : List String} {set : Prefixes} (h : prefixes written = .ok set) :
    Writable set := by
  have hread (written : List String) (start : Prefixes) (hstart : Writable start) :
      ∀ set, written.foldlM (fun set one => (parsePrefix one).map set.insert) start = .ok set →
        Writable set := by
    induction written generalizing start with
    | nil =>
      rintro set ⟨⟩
      exact hstart
    | cons one written ih =>
      intro set hset
      rw [List.foldlM_cons] at hset
      cases hone : parsePrefix one with
      | error problem =>
        rw [hone] at hset
        cases hset
      | ok p =>
        rw [hone] at hset
        refine ih (start.insert p) (fun q hq => ?_) set hset
        rw [Std.ExtTreeSet.mem_insert, Std.LawfulEqCmp.compare_eq_iff_eq] at hq
        obtain rfl | hq := hq
        · exact parsePrefix_fits hone
        · exact hstart q hq
  exact hread written ∅ (fun p hp => absurd hp (by simp)) set h

/-! ### The core at work -/

/-- Where packets go when the command names no targets. -/
def DEFAULT_TARGET : String := "1.1.1.1/32"

/-- The prefixes to route into the tunnel, as written on the command line. -/
def parseTargets (raw : List String) : Except String Prefixes :=
  if raw = [] then (parsePrefix DEFAULT_TARGET).map fun one => {one}
  else prefixes raw

/-- The core as it is brought up: with the targets routed, and the resolver beside it. -/
def bringUp (adapter : Adapter) (now : Instant) (listen : Option SocketAddr) (level : Level)
    (raw : List String) : Except String (Process reqwest) :=
  match parseTargets raw with
  | .error problem => .error problem
  | .ok wanted =>
    let r := (Core.new adapter now).setRoutes wanted
    match r.1 with
    | .error problem => .error problem.text
    | .ok _ => .ok ⟨⟨r.2, .new listen⟩, level, none⟩

/-- What is done while the core is up: a request is answered, an answer is recorded, leases are
collected or carry traffic, and whether IPv6 is carried is measured. -/
inductive Work
  | request (request : Request)
  | record (walk : Walk (IpAddr × Lease)) (name : String) (records : List Record) (now : Instant)
  | expire (now : Instant)
  | touch (address : IpAddr) (now : Instant)
  | measured (carries : Bool)

def Work.call : Work → Option Core.Call
  | .request _ => none
  | .record walk name records now => some (.record walk name records now)
  | .expire now => some (.expire now)
  | .touch address now => some (.touch address now)
  | .measured carries => some (.setCarriesIpv6 carries)

def work (env : Env) (p : Process reqwest) (w : Work) : Process reqwest :=
  match w with
  | .request request => (answer env p request).2
  | _ => { p with machine := w.call.elim p.machine p.machine.perform }

/-- What is asked for and what is routed can be written. -/
structure Sound (c : Core) : Prop where
  asked : Writable c.asked
  installed : Writable c.routes.installed

namespace Sound

variable {c : Core}

lemma union (h : Sound c) : Writable c.union := by
  intro p hp
  obtain ⟨hp | ⟨a, -, rfl⟩, -⟩ := Core.mem_union.1 hp
  · exact h.asked p hp
  · exact hostRoute_fits a

lemma installUnion (h : Sound c) : Sound c.installUnion.2 :=
  ⟨h.asked, h.installed.apply h.union⟩

lemma relet (h : Sound c) (r : Bool × Leases) : Sound (c.relet r) := by
  have hr : Sound { c with leases := r.2 } := ⟨h.asked, h.installed⟩
  unfold Core.relet
  dsimp only
  split
  · exact hr.installUnion
  · exact hr

lemma work (env : Env) {p : Process reqwest} (h : Sound p.machine.core) (w : Work) :
    Sound (work env p w).machine.core := by
  cases w with
  | request request =>
    cases request with
    | routes set ipv6 =>
      simp only [Control.work, answer]
      split
      · exact h
      · next wanted hwanted =>
        have hwritable := prefixes_writable hwanted
        have hset : Sound ((p.machine.core.setWantsIpv6 ipv6).setRoutes wanted).2 :=
          installUnion ⟨hwritable, h.installed⟩
        unfold routes
        dsimp only
        split <;> exact hset
    | dns policy =>
      have hinstall : Sound (p.machine.install env.walk policy).2.core := by
        unfold Machine.install Server.install
        dsimp only
        split
        · exact h
        · exact h.installUnion
      simp only [Control.work, answer]
      split <;> exact hinstall
    | log level =>
      simp only [Control.work, answer]
      split <;> exact h
    | sni name =>
      simp only [Control.work, answer, setFrontedName]
      split_ifs <;> exact h
    | status => exact h
    | reconnect => exact ⟨h.asked, h.installed⟩
    | stop => exact ⟨h.asked, h.installed⟩
  | record walk name records now => exact h.relet _
  | expire now => exact h.relet _
  | touch address now => exact ⟨h.asked, h.installed⟩
  | measured carries =>
    have hset (state : Ipv6Support) : Sound (if p.machine.core.v6 = state then p.machine.core
        else ({ p.machine.core with v6 := state } : Core).refreshRoutes.2) := by
      split
      · exact h
      · exact installUnion ⟨h.asked, h.installed⟩
    exact hset _

lemma foldl (env : Env) {p : Process reqwest} (h : Sound p.machine.core) (works : List Work) :
    Sound (works.foldl (Control.work env) p).machine.core := by
  induction works generalizing p with
  | nil => exact h
  | cons w works ih => exact ih (h.work env w)

end Sound

/-- Where no row is refused, the table agrees with what is asked for and leased all along. -/
lemma good_work (env : Env) {p : Process reqwest} (h : p.machine.Good) (w : Work) :
    (work env p w).machine.Good := by
  cases w with
  | request request =>
    cases request with
    | routes set ipv6 =>
      simp only [Control.work, answer]
      split
      · exact h
      · next wanted hwanted =>
        have hset : (⟨((p.machine.core.setWantsIpv6 ipv6).setRoutes wanted).2,
            p.machine.server⟩ : Machine reqwest).Good := h.perform (.routes ipv6 wanted)
        unfold routes
        dsimp only
        split <;> exact hset
    | dns policy =>
      have hinstall : (p.machine.install env.walk policy).2.Good := by
        unfold Machine.install Server.install
        dsimp only
        split
        · exact h
        · exact ⟨Core.installUnion_accepted_again h.1, Core.installUnion_agrees h.1⟩
      simp only [Control.work, answer]
      split <;> exact hinstall
    | log level =>
      simp only [Control.work, answer]
      split <;> exact h
    | sni name =>
      simp only [Control.work, answer, setFrontedName]
      split_ifs <;> exact h
    | status => exact h
    | reconnect => exact h
    | stop => exact h
  | record walk name records now => exact h.perform _
  | expire now => exact h.perform _
  | touch address now => exact h.perform _
  | measured carries => exact h.perform _

lemma good_foldl (env : Env) {p : Process reqwest} (h : p.machine.Good) (works : List Work) :
    (works.foldl (work env) p).machine.Good := by
  induction works generalizing p with
  | nil => exact h
  | cons w works ih => exact ih (good_work env h w)

section

variable {adapter : Adapter} {now : Instant} {listen : Option SocketAddr} {level : Level}
  {raw : List String} {p : Process reqwest}

lemma parseTargets_writable {wanted : Prefixes} (h : parseTargets raw = .ok wanted) :
    Writable wanted := by
  unfold parseTargets at h
  split at h
  · cases hdefault : parsePrefix DEFAULT_TARGET with
    | error problem =>
      rw [hdefault] at h
      cases h
    | ok p =>
      rw [hdefault] at h
      cases h
      intro q hq
      obtain rfl : p = q := by simpa using hq
      exact parsePrefix_fits hdefault
  · exact prefixes_writable h

/-- What is brought up has its targets routed. -/
lemma bringUp_core (h : bringUp adapter now listen level raw = .ok p) : ∃ wanted,
    Writable wanted ∧ p.machine.core = ((Core.new adapter now).setRoutes wanted).2 := by
  unfold bringUp at h
  split at h
  · cases h
  · next wanted hwanted =>
    dsimp only at h
    split at h
    · cases h
    · cases h
      exact ⟨wanted, parseTargets_writable hwanted, rfl⟩

lemma bringUp_sound (h : bringUp adapter now listen level raw = .ok p) :
    Sound p.machine.core := by
  obtain ⟨wanted, hwanted, hcore⟩ := bringUp_core h
  rw [hcore]
  exact Sound.installUnion ⟨hwanted, fun q hq => absurd hq (by simp [Core.new])⟩

lemma bringUp_good (ha : adapter.table.Accepts) (h : bringUp adapter now listen level raw = .ok p) :
    p.machine.Good := by
  obtain ⟨wanted, -, hcore⟩ := bringUp_core h
  unfold Machine.Good
  rw [hcore]
  exact Core.perform_agrees (c := Core.new adapter now) ha (Core.new_agrees adapter now)
    (.setRoutes wanted)

/-- Where the table agrees, asking for what is installed moves nothing. -/
lemma routes_installed (h : p.machine.core.Agrees) :
    routes p p.machine.core.routes.installed p.machine.core.wantsV6 = (.routes [] [],
      { p with machine.core.asked := p.machine.core.routes.installed }) := by
  have hunion : (asking p.machine.core p.machine.core.routes.installed
      p.machine.core.wantsV6).union = p.machine.core.routes.installed := by
    refine Std.ExtTreeSet.ext_mem fun q => ?_
    have hagrees : q ∈ p.machine.core.routes.installed ↔ q ∈ p.machine.core.union := by
      rw [show p.machine.core.routes.installed = p.machine.core.union from h]
    rw [hagrees, Core.mem_union, Core.mem_union]
    simp only [asking, hagrees, Core.mem_union]
    tauto
  have happly : p.machine.core.routes.apply p.machine.core.adapter.table
      (asking p.machine.core p.machine.core.routes.installed p.machine.core.wantsV6).union =
      (.ok ⟨[], []⟩, p.machine.core.routes) := by
    rw [hunion, Routes.apply_self]
  have hset : (p.machine.core.setWantsIpv6 p.machine.core.wantsV6).setRoutes
      p.machine.core.routes.installed = (.ok ⟨[], []⟩,
        { p.machine.core with asked := p.machine.core.routes.installed }) := by
    change ((Routes.apply p.machine.core.adapter.table p.machine.core.routes
      (asking p.machine.core p.machine.core.routes.installed p.machine.core.wantsV6).union).1,
      ({ asking p.machine.core p.machine.core.routes.installed p.machine.core.wantsV6 with
        routes := (Routes.apply p.machine.core.adapter.table p.machine.core.routes
          (asking p.machine.core p.machine.core.routes.installed
            p.machine.core.wantsV6).union).2 } : Core)) = _
    rw [happly]
    rfl
  unfold routes
  simp only [hset]
  rfl

/-- **The routed set that a status lists can be sent back**: however long the core has been up, the
listing reads as the set itself; and where no row is refused, asking for it with IPv6 as wanted
before moves no row. -/
theorem status_restated (h : bringUp adapter now listen level raw = .ok p) (env : Env)
    (works : List Work) :
    let q := works.foldl (work env) p
    prefixes (status q).routes = .ok q.machine.core.routes.installed ∧
      (adapter.table.Accepts →
        answer env q (.routes (status q).routes q.machine.core.wantsV6) = (.routes [] [],
          { q with machine.core.asked := q.machine.core.routes.installed })) := by
  intro q
  have hread : prefixes (status q).routes = .ok q.machine.core.routes.installed :=
    prefixes_toList ((bringUp_sound h).foldl env works).installed
  refine ⟨hread, fun ha => ?_⟩
  have hgood : q.machine.Good := good_foldl env (bringUp_good ha h) works
  simp only [answer, hread]
  exact routes_installed hgood.2

end

/-- IPv6 is found to be carried, and a prefix of each family is asked for. -/
def bothFamilies : List Work :=
  [.measured true, .request (.routes ["2606:4700::/32", "104.16.0.0/13"] true)]

theorem status_restated_both : ∃ p : Process noHttps,
    bringUp ⟨fun _ => 0, fun _ => 0⟩ 0 none .info [] = .ok p ∧
      let q := bothFamilies.foldl (work ⟨fun _ => true, .asHeld⟩) p
      prefixes (status q).routes = .ok q.machine.core.routes.installed ∧
        answer ⟨fun _ => true, .asHeld⟩ q (.routes (status q).routes q.machine.core.wantsV6) =
          (.routes [] [], { q with machine.core.asked := q.machine.core.routes.installed }) := by
  cases h : (bringUp ⟨fun _ => 0, fun _ => 0⟩ 0 none .info [] :
      Except String (Process noHttps)) with
  | error problem =>
    have hok : (bringUp ⟨fun _ => 0, fun _ => 0⟩ 0 none .info [] :
        Except String (Process noHttps)).isOk = true := by decide +kernel
    rw [h] at hok
    cases hok
  | ok p =>
    have hrestated := status_restated h ⟨fun _ => true, .asHeld⟩ bothFamilies
    exact ⟨p, rfl, hrestated.1, hrestated.2 fun _ => ⟨rfl, rfl⟩⟩

end Control

end Masqr

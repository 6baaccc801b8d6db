import Mathlib
import Masqr.Core.State
import Masqr.Lib.Refresh
import Masqr.Lib.Run

/-!
Calls on the core at the same time, lock by lock.

Each of the things the installed set is made from is behind its own lock or in an atomic of its
own. A step takes one of them once, to read it or to change it. The routing lock is held from
before the first is read until the table was changed.
-/

namespace Masqr.Core.Interleaving

open Masqr.Lib Masqr.Dns Masqr.Tun

/-- How far whoever holds the routing lock has read: nothing, that IPv6 is wanted, whether it is
routed, what is asked for as well, and everything. -/
inductive Reading
  | locked
  | wants
  | flags (carriesV6 : Bool)
  | asked (carriesV6 : Bool) (asked : Prefixes)
  | union (wanted : Prefixes)

/-- What a call does next. -/
inductive Pc
  | idle
  | want (ipv6 : Bool) (wanted : Prefixes)
  | ask (wanted : Prefixes)
  | measured (state : Ipv6Support)
  | carry (state : Ipv6Support)
  | learn (walk : Walk (IpAddr × Lease)) (name : String) (records : List Record) (now : Instant)
  | forget (now : Instant)
  | use (address : IpAddr) (now : Instant)
  | install
  | holding (reading : Reading)

/-- The core, who holds the routing lock, and the calls under way. -/
structure World where
  core : Core
  lock : Option ℕ
  pcs : ℕ → Pc

def World.start (core : Core) : World := ⟨core, none, fun _ => .idle⟩

/-- Where a call begins. -/
def entry : Call → Pc
  | .setRoutes wanted => .ask wanted
  | .routes ipv6 wanted => .want ipv6 wanted
  | .setCarriesIpv6 carries => .measured (if carries then .carries else .doesNot)
  | .record walk name records now => .learn walk name records now
  | .expire now => .forget now
  | .touch address now => .use address now
  | .routesChanged => .install

inductive Label
  | start (t : ℕ) (call : Call)
  | go (t : ℕ)

def World.put (w : World) (t : ℕ) (core : Core) (pc : Pc) : World :=
  { w with core := core, pcs := Function.update w.pcs t pc }

/-- What is read next under the routing lock, or the set to install when all was read. -/
def read (c : Core) : Reading → Reading ⊕ Prefixes
  | .locked => .inl (if c.wantsV6 then .wants else .flags false)
  | .wants => .inl (.flags (decide (c.v6 = .carries)))
  | .flags carriesV6 => .inl (.asked carriesV6 c.asked)
  | .asked carriesV6 asked => .inl (.union (unionOf carriesV6 asked c.leases.addresses))
  | .union wanted => .inr wanted

/-- After the leases were changed, the table is made to agree where that is needed. -/
def afterLeases (changed : Bool) : Pc := if changed then .install else .idle

def go (w : World) (t : ℕ) : Option World :=
  let c := w.core
  match w.pcs t with
  | .idle => none
  | .want ipv6 wanted => some (w.put t { c with wantsV6 := ipv6 } (.ask wanted))
  | .ask wanted => some (w.put t { c with asked := wanted } .install)
  | .measured state => some (w.put t c (if c.v6 = state then .idle else .carry state))
  | .carry state => some (w.put t { c with v6 := state } .install)
  | .learn walk name records now =>
    let r := c.leases.record walk name records now
    some (w.put t { c with leases := r.2 } (afterLeases r.1))
  | .forget now =>
    let r := c.leases.expire now
    some (w.put t { c with leases := r.2 } (afterLeases r.1))
  | .use address now => some (w.put t { c with leases := c.leases.touch address now } .idle)
  | .install =>
    if w.lock = none then some { w.put t c (.holding .locked) with lock := some t } else none
  | .holding reading =>
    match read c reading with
    | .inl reading => some (w.put t c (.holding reading))
    | .inr wanted =>
      some { w.put t { c with routes := (c.routes.apply c.adapter.table wanted).2 } .idle with
        lock := none }

def step (w : World) : Label → Option World
  | .start t call =>
    match w.pcs t with
    | .idle => some (w.put t w.core (entry call))
    | _ => none
  | .go t => go w t

/-! ### The two halves as inputs of one output -/

/-- What has been read is still so. -/
def Fits (c : Core) : Reading → Prop
  | .locked => True
  | .wants => c.wantsV6 = true
  | .flags carriesV6 => carriesV6 = c.routesIpv6
  | .asked carriesV6 asked => carriesV6 = c.routesIpv6 ∧ asked = c.asked
  | .union wanted => wanted = c.union

def refresh : Refresh Core Reading Prefixes where
  start := .locked
  read := read
  Fits := Fits
  Agrees c installed := installed = c.union
  fits_start _ := trivial
  fits_read {c reading reading'} hf hr := by
    cases reading with
    | locked =>
      obtain rfl := Sum.inl.inj hr
      cases hw : c.wantsV6 <;> simp [Fits, hw, routesIpv6]
    | wants =>
      obtain rfl := Sum.inl.inj hr
      simp only [Fits] at hf
      simp [Fits, hf, routesIpv6]
    | flags carriesV6 =>
      obtain rfl := Sum.inl.inj hr
      exact ⟨hf, rfl⟩
    | asked carriesV6 asked =>
      obtain rfl := Sum.inl.inj hr
      obtain ⟨rfl, rfl⟩ := hf
      rfl
    | union wanted => cases hr
  agrees_read {c reading wanted} hf hr := by
    cases reading with
    | union wanted' => exact (Sum.inr.inj hr) ▸ hf
    | _ => cases hr

/-- What a call is to do about the table. -/
def duty : Pc → Refresh.Duty Reading
  | .ask _ | .install => .owes
  | .holding reading => .reads reading
  | _ => .none

/-- What the set is made from: the core but for the set itself. -/
def inputs (c : Core) : Core := { c with routes := ⟨∅⟩ }

def World.view (w : World) : Refresh.State Core Reading Prefixes :=
  ⟨inputs w.core, w.core.routes.installed, fun t => duty (w.pcs t)⟩

lemma view_put (w : World) (t : ℕ) (core : Core) (pc : Pc) : (w.put t core pc).view =
    ⟨inputs core, core.routes.installed, Function.update w.view.duty t (duty pc)⟩ := by
  have : (fun u => duty (Function.update w.pcs t pc u)) =
      Function.update (fun u => duty (w.pcs u)) t (duty pc) := by
    funext u
    by_cases hu : u = t
    · subst hu; simp
    · simp [hu]
  unfold World.view World.put
  rw [this]

/-- The rows are accepted, and who reads holds the lock. -/
structure Good (w : World) : Prop where
  accepted : w.core.Accepted
  lock : ∀ t reading, w.pcs t = .holding reading → w.lock = some t

namespace Good

variable {w w' : World} {t : ℕ}

lemma reads_iff {reading : Reading} :
    w.view.duty t = .reads reading ↔ w.pcs t = .holding reading := by
  change duty (w.pcs t) = _ ↔ _
  cases w.pcs t <;> simp [duty]

/-- A call goes on to something other than a reading. -/
lemma put (h : Good w) {core : Core} {pc : Pc} (ha : core.Accepted)
    (hp : ∀ reading, pc ≠ .holding reading) : Good (w.put t core pc) := by
  refine ⟨ha, fun u reading hu => ?_⟩
  have hut : u ≠ t := fun he => by subst he; simp [World.put, hp] at hu
  exact h.lock u reading (by simpa [World.put, hut] using hu)

/-- The holder of the lock reads on. -/
lemma put_holding (h : Good w) {core : Core} {reading reading' : Reading} (ha : core.Accepted)
    (ht : w.pcs t = .holding reading) : Good (w.put t core (.holding reading')) := by
  refine ⟨ha, fun u r hu => ?_⟩
  by_cases hut : u = t
  · subst hut; exact h.lock u reading ht
  · exact h.lock u r (by simpa [World.put, hut] using hu)

end Good

/-! ### Every step is a move -/

section moves

variable {w : World} {t : ℕ} {c : Core} {pc : Pc}

/-- A change of an input by a call that is to refresh the table after it. -/
lemma move_change (hn : ∀ reading, w.pcs t ≠ .holding reading)
    (hr : c.routes = w.core.routes) (hd : duty pc = .owes) :
    refresh.Move w.view (w.put t c pc).view := by
  rw [view_put, hd, hr]
  exact .change (inputs c) fun v hv => hn v (Good.reads_iff.mp hv)

/-- A step that changes nothing the set is made from. -/
lemma move_rest (hn : duty (w.pcs t) = .none) (hd : duty pc = .none)
    (hr : c.routes = w.core.routes) (hw : c.wantsV6 = w.core.wantsV6) (hv : c.v6 = w.core.v6)
    (ha : c.asked = w.core.asked) (hl : ∀ a, a ∈ c.leases.held ↔ a ∈ w.core.leases.held) :
    refresh.Move w.view (w.put t c pc).view := by
  have hview : (w.put t c pc).view = { w.view with inputs := inputs c } := by
    rw [view_put, hd, hr, ← hn]
    exact congrArg _ (Function.update_eq_self t w.view.duty)
  have hu : (inputs c).union = (inputs w.core).union :=
    union_congr hw hv (fun p => by simp only [inputs, ha]) hl
  have hflags : (inputs c).routesIpv6 = (inputs w.core).routesIpv6 := by
    change (c.wantsV6 && decide (c.v6 = .carries)) = (w.core.wantsV6 && decide (w.core.v6 = .carries))
    rw [hw, hv]
  rw [hview]
  refine .rest (inputs c) (fun reading hf => ?_) fun installed hi => Eq.trans hi hu.symm
  cases reading with
  | locked => trivial
  | wants => exact hw.trans hf
  | flags carriesV6 => exact Eq.trans hf hflags.symm
  | asked carriesV6 asked => exact ⟨hf.1.trans hflags.symm, hf.2.trans ha.symm⟩
  | union wanted => exact Eq.trans hf hu.symm

/-- The leases changed: a refresh is to follow where an address was added or let go of. -/
lemma move_leases {changed : Bool} {leases : Leases} (hn : duty (w.pcs t) = .none)
    (hl : changed = false → ∀ a, a ∈ leases.held ↔ a ∈ w.core.leases.held) :
    refresh.Move w.view (w.put t { w.core with leases := leases } (afterLeases changed)).view := by
  cases changed with
  | true => exact move_change (fun reading hr => by rw [hr] at hn; cases hn) rfl rfl
  | false => exact move_rest hn rfl rfl rfl rfl rfl (hl rfl)

end moves

variable {w w' : World}

/-- **Every step is a move of the refresh.** -/
theorem step_move (h : Good w) {l : Label} (hs : step w l = some w') :
    Good w' ∧ refresh.Move w.view w'.view := by
  cases l with
  | start t call =>
    simp only [step] at hs
    split at hs
    · next hidle =>
      obtain rfl := Option.some.inj hs
      have hn : ∀ reading, w.pcs t ≠ .holding reading := by rw [hidle]; nofun
      refine ⟨h.put h.accepted (by cases call <;> nofun), ?_⟩
      have hd : duty (w.pcs t) = .none := by rw [hidle]; rfl
      have hrest (hc : duty (entry call) = .none) :=
        move_rest (c := w.core) hd hc rfl rfl rfl rfl fun _ => Iff.rfl
      cases call with
      | setRoutes wanted => exact move_change hn rfl rfl
      | routesChanged => exact move_change hn rfl rfl
      | _ => exact hrest rfl
    · cases hs
  | go t =>
    simp only [step, go] at hs
    split at hs
    · cases hs
    · next ipv6 wanted hpc =>
      obtain rfl := Option.some.inj hs
      exact ⟨h.put h.accepted nofun, move_change (by rw [hpc]; nofun) rfl rfl⟩
    · next wanted hpc =>
      obtain rfl := Option.some.inj hs
      exact ⟨h.put h.accepted nofun, move_change (by rw [hpc]; nofun) rfl rfl⟩
    · next state hpc =>
      obtain rfl := Option.some.inj hs
      have hd : duty (w.pcs t) = .none := by rw [hpc]; rfl
      split_ifs
      · exact ⟨h.put h.accepted nofun, move_rest hd rfl rfl rfl rfl rfl fun _ => Iff.rfl⟩
      · exact ⟨h.put h.accepted nofun, move_rest hd rfl rfl rfl rfl rfl fun _ => Iff.rfl⟩
    · next state hpc =>
      obtain rfl := Option.some.inj hs
      exact ⟨h.put h.accepted nofun, move_change (by rw [hpc]; nofun) rfl rfl⟩
    · next walk name records now hpc =>
      obtain rfl := Option.some.inj hs
      refine ⟨h.put h.accepted ?_, move_leases (by rw [hpc]; rfl) fun hc a => ?_⟩
      · unfold afterLeases; split <;> nofun
      · exact (Leases.record_false hc).1
    · next now hpc =>
      obtain rfl := Option.some.inj hs
      refine ⟨h.put h.accepted ?_, move_leases (by rw [hpc]; rfl) fun hc a => ?_⟩
      · unfold afterLeases; split <;> nofun
      · rw [Leases.expire_false hc]
    · next address now hpc =>
      obtain rfl := Option.some.inj hs
      have hd : duty (w.pcs t) = .none := by rw [hpc]; rfl
      exact ⟨h.put h.accepted nofun,
        move_rest hd rfl rfl rfl rfl rfl fun a => Leases.mem_touch⟩
    · next hpc =>
      split_ifs at hs with hfree
      obtain rfl := Option.some.inj hs
      have hnone : ∀ u reading, w.view.duty u ≠ .reads reading := fun u reading hu => by
        have := h.lock u reading (Good.reads_iff.mp hu)
        rw [hfree] at this
        cases this
      refine ⟨⟨h.accepted, fun u reading hu => ?_⟩, ?_⟩
      · by_cases hut : u = t
        · rw [hut]
        · have hu' : w.pcs u = .holding reading := by simpa [World.put, hut] using hu
          exact absurd (Good.reads_iff.mpr hu') (hnone u reading)
      · have : refresh.Move w.view (w.put t w.core (.holding .locked)).view := by
          rw [view_put]
          exact .take (show w.view.duty t = .owes by simp [World.view, hpc, duty]) hnone
        exact this
    · next reading hpc =>
      have hreads : w.view.duty t = .reads reading := Good.reads_iff.mpr hpc
      split at hs
      · next reading' hr =>
        obtain rfl := Option.some.inj hs
        refine ⟨h.put_holding h.accepted hpc, ?_⟩
        rw [view_put]
        exact .look hreads hr
      · next wanted hr =>
        obtain rfl := Option.some.inj hs
        refine ⟨⟨h.accepted, fun u r hu => ?_⟩, ?_⟩
        · have hut : u ≠ t := fun he => by subst he; simp [World.put] at hu
          have hu' : w.pcs u = .holding r := by simpa [World.put, hut] using hu
          exact absurd (Option.some.inj ((h.lock u r hu').symm.trans (h.lock t reading hpc))) hut
        · rw [Routes.apply_accepted h.accepted]
          have : refresh.Move w.view (w.put t { w.core with routes := ⟨wanted⟩ } .idle).view := by
            rw [view_put]
            exact .put hreads hr
          exact this

/-- **A run from a core whose table agrees keeps the table refreshed or due to be.** -/
theorem run_sound {c : Core} (ha : c.Accepted) (hc : c.Agrees) {labels : List Label}
    (h : run step (.start c) labels = some w) : Good w ∧ refresh.Sound w.view :=
  run_inv (I := fun w => Good w ∧ refresh.Sound w.view)
    (fun _ _ _ hg hs => ⟨(step_move hg.1 hs).1, hg.2.move (step_move hg.1 hs).2⟩)
    ⟨⟨ha, fun _ _ hp => by cases hp⟩, Refresh.Sound.init hc⟩ h

/-- **Once all calls have returned, the installed set is what was asked for and a host route per
leased address, IPv6 only where it is wanted and carried.** -/
theorem installed_once_returned {adapter : Adapter} (ha : adapter.table.Accepts) {now : Instant}
    {labels : List Label} (h : run step (.start (.new adapter now)) labels = some w)
    (hidle : ∀ t, w.pcs t = .idle) (p : Prefix) :
    p ∈ w.core.routes.installed ↔
      (p ∈ w.core.asked ∨ ∃ a ∈ w.core.leases.addresses, p = hostRoute a) ∧
        (p.1.isIpv4 = true ∨ (w.core.wantsV6 = true ∧ w.core.v6 = .carries)) := by
  have hs := (run_sound (c := .new adapter now) ha (new_agrees ..) h).2.agrees fun t => by
    simp [World.view, hidle t, duty]
  rw [show w.core.routes.installed = w.core.union from hs, mem_union]

/-- A set arrives while a measurement is recorded, and each call installs what it finds. -/
theorem installed_once_returned_two : ∃ w,
    run step (.start (.new ⟨fun _ => 0, fun _ => 0⟩ 0)) [.start 0 (.setRoutes {(.v4 1, 32)}),
      .start 1 (.setCarriesIpv6 true), .go 0, .go 1, .go 0, .go 1, .go 0, .go 0, .go 0, .go 0,
      .go 1, .go 1, .go 1, .go 1, .go 1] = some w ∧
    ∀ p, p ∈ w.core.routes.installed ↔
      (p ∈ w.core.asked ∨ ∃ a ∈ w.core.leases.addresses, p = hostRoute a) ∧
        (p.1.isIpv4 = true ∨ (w.core.wantsV6 = true ∧ w.core.v6 = .carries)) := by
  obtain ⟨w, hw, hidle⟩ : ∃ w,
      run step (.start (.new ⟨fun _ => 0, fun _ => 0⟩ 0)) [.start 0 (.setRoutes {(.v4 1, 32)}),
        .start 1 (.setCarriesIpv6 true), .go 0, .go 1, .go 0, .go 1, .go 0, .go 0, .go 0, .go 0,
        .go 1, .go 1, .go 1, .go 1, .go 1] = some w ∧ ∀ t, w.pcs t = .idle := by
    refine ⟨_, rfl, fun t => ?_⟩
    by_cases h0 : t = 0
    · subst h0; rfl
    · by_cases h1 : t = 1
      · subst h1; rfl
      · simp [World.put, World.start, h0, h1]
  exact ⟨w, hw, installed_once_returned (fun _ => ⟨rfl, rfl⟩) hw hidle⟩

/-! ### One call alone -/

section alone

variable {t : ℕ}

/-- One call goes on until there. -/
def Reaches (t : ℕ) (w w' : World) : Prop :=
  ∃ n, run step w (List.replicate n (.go t)) = some w'

lemma Reaches.refl (t : ℕ) (w : World) : Reaches t w w := ⟨0, rfl⟩

lemma Reaches.head {w w'' : World} (w' : World) (h : go w t = some w') (hr : Reaches t w' w'') :
    Reaches t w w'' := by
  obtain ⟨n, hn⟩ := hr
  exact ⟨n + 1, (run_cons step).mpr ⟨w', h, hn⟩⟩

@[simp] lemma put_pcs (w : World) (c : Core) (pc : Pc) : (w.put t c pc).pcs t = pc :=
  Function.update_self ..

@[simp] lemma put_core (w : World) (c : Core) (pc : Pc) : (w.put t c pc).core = c := rfl

@[simp] lemma put_lock (w : World) (c : Core) (pc : Pc) : (w.put t c pc).lock = w.lock := rfl

@[simp] lemma put_put (w : World) (c d : Core) (pc pd : Pc) :
    (w.put t c pc).put t d pd = w.put t d pd := by
  simp [World.put]

/-- One more part is read. -/
lemma Reaches.read {c : Core} {reading : Reading} {w' : World} (reading' : Reading)
    (hr : read c reading = .inl reading') (h : Reaches t (w.put t c (.holding reading')) w') :
    Reaches t (w.put t c (.holding reading)) w' :=
  .head _ (by simp only [go, put_pcs, put_core, hr, put_put]) h

lemma go_union (c : Core) (wanted : Prefixes) : go (w.put t c (.holding (.union wanted))) t = some
    { w.put t { c with routes := (c.routes.apply c.adapter.table wanted).2 } .idle with
      lock := none } := by
  simp only [go, put_pcs, Interleaving.read, put_core, put_put]

/-- Who knows whether IPv6 is routed reads the rest and installs the union. -/
lemma Reaches.flags (c : Core) : Reaches t (w.put t c (.holding (.flags c.routesIpv6)))
    { w.put t c.installUnion.2 .idle with lock := none } :=
  .read _ rfl (.read _ rfl (.head _ (go_union ..) (.refl ..)))

lemma Reaches.locked (c : Core) : Reaches t (w.put t c (.holding .locked))
    { w.put t c.installUnion.2 .idle with lock := none } := by
  have hflags := Reaches.flags (w := w) (t := t) c
  cases hw : c.wantsV6 with
  | false =>
    rw [show c.routesIpv6 = false by simp [routesIpv6, hw]] at hflags
    exact .read _ (by simp [Interleaving.read, hw]) hflags
  | true =>
    rw [show c.routesIpv6 = decide (c.v6 = .carries) by simp [routesIpv6, hw]] at hflags
    exact .read .wants (by simp [Interleaving.read, hw]) (.read _ rfl hflags)

/-- **A refresh alone is `installUnion`.** -/
theorem Reaches.install (c : Core) (hl : w.lock = none) :
    Reaches t (w.put t c .install) (w.put t c.installUnion.2 .idle) := by
  have hlocked := Reaches.locked (w := { w with lock := some t }) (t := t) c
  refine .head ({ w.put t c (.holding .locked) with lock := some t }) (by simp [go, hl]) ?_
  rw [← hl] at hlocked
  exact hlocked

lemma Reaches.leases (c : Core) (r : Bool × Leases) (hl : w.lock = none) :
    Reaches t (w.put t { c with leases := r.2 } (afterLeases r.1)) (w.put t (c.relet r) .idle) := by
  unfold afterLeases relet
  dsimp only
  split
  · exact .install _ hl
  · exact .refl ..

lemma Reaches.ask (c : Core) (wanted : Prefixes) (hl : w.lock = none) :
    Reaches t (w.put t c (.ask wanted)) (w.put t (c.setRoutes wanted).2 .idle) :=
  .head (w.put t { c with asked := wanted } .install)
    (by simp only [go, put_pcs, put_core, put_put]) (.install _ hl)

lemma Reaches.measured (c : Core) (carries : Bool) (hl : w.lock = none) :
    Reaches t (w.put t c (.measured (if carries then .carries else .doesNot)))
      (w.put t (c.setCarriesIpv6 carries) .idle) := by
  generalize hs : (if carries then Ipv6Support.carries else .doesNot) = state
  unfold setCarriesIpv6
  simp only [hs]
  split_ifs with hv
  · exact .head (w.put t c .idle) (by simp [go, hv]) (.refl ..)
  · exact .head (w.put t c (.carry state)) (by simp [go, hv])
      (.head (w.put t { c with v6 := state } .install) (by simp [go]) (.install _ hl))

/-- **A call with nothing else going on does what `perform` says.** -/
theorem call_alone (hl : w.lock = none) (hidle : w.pcs t = .idle) (call : Call) :
    ∃ n, run step w (.start t call :: List.replicate n (.go t)) =
      some { w with core := w.core.perform call } := by
  have hreach : Reaches t (w.put t w.core (entry call)) (w.put t (w.core.perform call) .idle) := by
    cases call with
    | setRoutes wanted => exact .ask _ _ hl
    | routes ipv6 wanted =>
      exact .head (w.put t (w.core.setWantsIpv6 ipv6) (.ask wanted))
        (by simp [go, entry, setWantsIpv6]) (.ask _ _ hl)
    | setCarriesIpv6 carries => exact .measured _ _ hl
    | record walk name records now =>
      let r := w.core.leases.record walk name records now
      exact .head (w.put t { w.core with leases := r.2 } (afterLeases r.1))
        (by simp [go, entry, r]) (.leases _ r hl)
    | expire now =>
      let r := w.core.leases.expire now
      exact .head (w.put t { w.core with leases := r.2 } (afterLeases r.1))
        (by simp [go, entry, r]) (.leases _ r hl)
    | touch address now =>
      exact .head (w.put t (w.core.perform (.touch address now)) .idle)
        (by simp [go, entry, perform]) (.refl ..)
    | routesChanged => exact .install _ hl
  obtain ⟨n, hn⟩ := hreach
  refine ⟨n, (run_cons step).mpr ⟨w.put t w.core (entry call), ?_, ?_⟩⟩
  · simp only [step, hidle]
  rw [hn]
  unfold World.put
  rw [← hidle, Function.update_eq_self]

end alone

end Masqr.Core.Interleaving

import Mathlib.Data.List.Basic
import Masqr.Lib.Run
import Masqr.Status
import Masqr.Time

/-!
The registered device over time: loaded once, and replaced when the endpoint refuses it.

What becomes of the file and of the registration is given from outside. A registration is dated by
the call that made it, as `refresh` dates it.
-/

namespace Masqr.Warp

open Masqr.Lib

/-- The least time between one registration and the next. -/
def MIN_INTERVAL : Duration := .secs 600

/-- A registered device: who this machine is to the endpoint, and where the tunnel goes. -/
structure Identity where
  deviceId : String
  accessToken : String
  license : String := ""
  privateKeySec1 : String
  endpointPublicKeyPem : String
  assignedV4 : String
  assignedV6 : String
  endpointH2V4 : String
  endpointV4 : String := ""
  endpointV6 : String := ""
  deriving DecidableEq

/-- Why the device on disk could not be read or written. -/
inductive IdentityError
  | io (problem : String)
  | parse (problem : String)

inductive ApiError
  | http (problem : String)
  | status (call : String) (status : ℕ)
  | noPeer
  | key (problem : String)

/-- Why this machine has no usable device to open a tunnel with. -/
inductive EnrolmentError
  | identity (problem : IdentityError)
  | register (problem : ApiError)

/-- Why a fresh registration was not attempted. -/
inductive Refused
  | tooSoon
  deriving DecidableEq

/-- What becomes of the file and of the registration during one call. -/
structure World where
  load : Except IdentityError (Option Identity)
  register : Except ApiError Identity
  save : Except IdentityError Unit

/-- The device this core presents, and when it was registered by `refresh`, if it was. -/
structure Enrolment where
  current : Identity
  last : Option Instant

/-- A computation that may register devices, each dated; the latest comes first. -/
abbrev Registering (α : Type) := ExceptT EnrolmentError (StateM (List Instant)) α

def register (w : World) (now : Instant) : Registering Identity :=
  match w.register with
  | .ok identity => do
    modify (now :: ·)
    return identity
  | .error problem => throw (.register problem)

def save (w : World) : Registering Unit :=
  match w.save with
  | .ok () => return ()
  | .error problem => throw (.identity problem)

def load (w : World) : Registering (Option Identity) :=
  match w.load with
  | .ok found => return found
  | .error problem => throw (.identity problem)

/-- Load the device kept in the file, registering one if there is none. -/
def Enrolment.loadOrRegister (w : World) (now : Instant) : Registering (Enrolment × Bool) := do
  match ← load w with
  | some identity => return (⟨identity, none⟩, false)
  | none =>
    let identity ← register w now
    save w
    return (⟨identity, none⟩, true)

/-- Whether a registration happened recently enough that another is not attempted. -/
def Enrolment.tooSoon (e : Enrolment) (now : Instant) : Bool :=
  e.last.any fun last => decide (now.since last < MIN_INTERVAL)

/-- Register a new device because the endpoint refused the one held, and write it down. It is
adopted, and dated, once it is saved. -/
def Enrolment.refresh (e : Enrolment) (w : World) (now : Instant) :
    Registering (Except Refused Identity × Enrolment) := do
  if e.tooSoon now then return (.error .tooSoon, e)
  else
    let identity ← register w now
    save w
    return (.ok identity, { current := identity, last := some now })

/-- Whether a refusal to open the tunnel is the endpoint declining this device. -/
def refusalIsAboutTheDevice [StatusCode] (status : ℕ) : Bool := StatusCode.isClientError status

/-! ### Runs -/

/-- A core with its device, the devices it has registered, and the time of its last call. -/
structure Running where
  enrolment : Option Enrolment
  made : List Instant
  clock : Instant

/-- What `load_or_register` leaves; without a device there is nothing to go on with. -/
def start (w : World) (now : Instant) : Running :=
  match (Enrolment.loadOrRegister w now).run [] with
  | (.ok (e, _), made) => ⟨some e, made, now⟩
  | (.error _, made) => ⟨none, made, now⟩

/-- A refusal of the device: `refresh` keeps the enrolment it had where it fails. -/
def step (s : Running) (call : Instant × World) : Option Running :=
  match s.enrolment with
  | none => none
  | some e =>
    if call.1 < s.clock then none
    else match (e.refresh call.2 call.1).run s.made with
      | (.ok (_, e'), made) => some ⟨some e', made, call.1⟩
      | (.error _, made) => some ⟨some e, made, call.1⟩

/-- No two devices were registered within the interval. -/
def Apart (s : Running) : Prop :=
  s.made.Pairwise fun later earlier => earlier + MIN_INTERVAL ≤ later

/-- The call registers no device within the interval of one that `last` does not hold. -/
def Remembered (s : Running) (call : Instant × World) : Prop :=
  ∀ e, s.enrolment = some e → e.tooSoon call.1 = false → call.2.register.isOk = true →
    ∀ latest, s.made.head? = some latest → e.last ≠ some latest →
      latest + MIN_INTERVAL ≤ call.1

instance (s : Running) : Decidable (Apart s) := inferInstanceAs (Decidable (List.Pairwise _ _))

variable {e : Enrolment} {w : World} {now : Instant} {made : List Instant}

/-- A refusal that comes too soon registers nothing. -/
lemma refresh_soon (h : e.tooSoon now = true) :
    (e.refresh w now).run made = (.ok (.error .tooSoon, e), made) := by
  simp only [Enrolment.refresh, h, if_true]
  rfl

/-- A registration that fails leaves no device behind. -/
lemma refresh_refused (h : e.tooSoon now = false) {problem : ApiError}
    (hr : w.register = .error problem) :
    (e.refresh w now).run made = (.error (.register problem), made) := by
  simp only [Enrolment.refresh, h, register, hr]
  rfl

/-- A registration that succeeds leaves a device behind, and is remembered where it is saved. -/
lemma refresh_registered (h : e.tooSoon now = false) {identity : Identity}
    (hr : w.register = .ok identity) : (e.refresh w now).run made = (match w.save with
      | .ok () => .ok (.ok identity, ⟨identity, some now⟩)
      | .error problem => .error (.identity problem), now :: made) := by
  simp only [Enrolment.refresh, h, register, hr, save]
  cases w.save <;> rfl

/-- What a refusal comes to: nothing is registered, because it is too soon or the registration
fails; or a device is. -/
lemma step_cases {s s' : Running} {call : Instant × World} (h : step s call = some s') :
    ∃ e, s.enrolment = some e ∧
      (s'.made = s.made ∧ (e.tooSoon call.1 = true ∨ call.2.register.isOk = false) ∨
      s'.made = call.1 :: s.made ∧ e.tooSoon call.1 = false ∧ call.2.register.isOk = true) := by
  unfold step at h
  cases he : s.enrolment with
  | none =>
    rw [he] at h
    cases h
  | some e =>
    refine ⟨e, rfl, ?_⟩
    rw [he] at h
    dsimp only at h
    split_ifs at h
    cases hsoon : e.tooSoon call.1 with
    | true =>
      rw [refresh_soon hsoon] at h
      cases h
      exact .inl ⟨rfl, .inl rfl⟩
    | false =>
      cases hr : call.2.register with
      | error problem =>
        rw [refresh_refused hsoon hr] at h
        cases h
        exact .inl ⟨rfl, .inr rfl⟩
      | ok identity =>
        rw [refresh_registered hsoon hr] at h
        cases hsave : call.2.save with
        | ok =>
          rw [hsave] at h
          cases h
          exact .inr ⟨rfl, rfl, rfl⟩
        | error problem =>
          rw [hsave] at h
          cases h
          exact .inr ⟨rfl, rfl, rfl⟩

lemma since_last {last : Instant} (h : e.tooSoon now = false) (hl : e.last = some last) :
    last + MIN_INTERVAL ≤ now := by
  have hlate : ¬ now - last < MIN_INTERVAL := by
    rw [Enrolment.tooSoon, hl] at h
    exact of_decide_eq_false h
  have hadd : ∀ a b c : ℕ, 0 < c → ¬ a - b < c → b + c ≤ a := by omega
  exact hadd now last MIN_INTERVAL (by decide) hlate

/-- A call keeps the registrations apart exactly when it remembers the one before. -/
lemma step_apart {s s' : Running} {call : Instant × World} (hs : Apart s)
    (h : step s call = some s') : Apart s' ↔ Remembered s call := by
  obtain ⟨e, he, ⟨hmade, hnone⟩ | ⟨hmade, hsoon, hok⟩⟩ := step_cases h
  · refine iff_of_true (by rw [Apart, hmade]; exact hs) fun e' he' hsoon hok => ?_
    rw [he] at he'
    cases he'
    rcases hnone with hnone | hnone
    · rw [hnone] at hsoon
      cases hsoon
    · rw [hnone] at hok
      cases hok
  · rw [Apart, hmade, List.pairwise_cons]
    constructor
    · rintro ⟨hall, -⟩ e' he' - - latest hlatest -
      exact hall latest (List.mem_of_mem_head? hlatest)
    · intro hremembered
      refine ⟨fun m hm => ?_, hs⟩
      -- the earlier ones came an interval before the latest
      cases hmade' : s.made with
      | nil => rw [hmade'] at hm; cases hm
      | cons latest before =>
        have hlatest : latest + MIN_INTERVAL ≤ call.1 := by
          by_cases hl : e.last = some latest
          · exact since_last hsoon hl
          · exact hremembered e he hsoon hok latest (by rw [hmade']; rfl) hl
        rw [Apart, hmade', List.pairwise_cons] at hs
        rw [hmade', List.mem_cons] at hm
        rcases hm with rfl | hm
        · exact hlatest
        · have hbefore : m + MIN_INTERVAL ≤ latest := hs.1 m hm
          have hle : latest ≤ latest + MIN_INTERVAL := Nat.le_add_right _ _
          exact Nat.le_trans hbefore (Nat.le_trans hle hlatest)

lemma start_apart (w : World) (now : Instant) : Apart (start w now) := by
  unfold start Enrolment.loadOrRegister load
  cases w.load with
  | error problem => exact List.Pairwise.nil
  | ok found =>
    cases found with
    | some identity => exact List.Pairwise.nil
    | none =>
      unfold register save
      cases w.register with
      | error problem => exact List.Pairwise.nil
      | ok identity =>
        cases w.save with
        | ok => exact List.pairwise_singleton _ _
        | error problem => exact List.pairwise_singleton _ _

/-- **Devices are registered no more often than the interval** exactly when no call registers one
within the interval of a device that `last` does not hold: the one of `load_or_register`, or one
that could not be saved. -/
theorem registered_apart_iff (w : World) (now : Instant) {calls : List (Instant × World)}
    {t : Running} (h : run step (start w now) calls = some t) :
    (∀ before, before <+: calls → ∀ u, run step (start w now) before = some u → Apart u) ↔
      Meets step Remembered (start w now) calls :=
  Meets.iff_prefixes (I := fun _ => True) (fun _ _ _ _ _ => trivial)
    (fun _ _ _ _ hs hstep => step_apart hs hstep) trivial (start_apart w now) h

/-! ### Two devices five seconds apart -/

def device : Identity where
  deviceId := "device"
  accessToken := "token"
  privateKeySec1 := ""
  endpointPublicKeyPem := ""
  assignedV4 := "172.16.0.2"
  assignedV6 := "2606:4700::1"
  endpointH2V4 := "162.159.198.2"

/-- No file yet, and everything succeeds. -/
def welcoming : World := ⟨.ok none, .ok device, .ok ()⟩

/-- The file is there and cannot be written. -/
def readOnly : World := ⟨.ok (some device), .ok device, .error (.io "access is denied")⟩

theorem registered_apart_iff_later :
    (∀ before, before <+: [(Duration.secs 600, welcoming)] → ∀ u,
      run step (start welcoming 0) before = some u → Apart u) ↔
        Meets step Remembered (start welcoming 0) [(Duration.secs 600, welcoming)] :=
  registered_apart_iff welcoming 0 (t := ⟨some ⟨device, some (Duration.secs 600)⟩,
    [Duration.secs 600, 0], Duration.secs 600⟩)
    rfl

/-- **The first refusal registers a second device at once**, and so does every refusal while the
file cannot be written. -/
theorem registered_twice :
    (∃ t, run step (start welcoming 0) [(Duration.secs 5, welcoming)] = some t ∧ ¬ Apart t) ∧
    ∃ t, run step (start readOnly 0)
        [(Duration.secs 5, readOnly), (Duration.secs 10, readOnly)] = some t ∧ ¬ Apart t :=
  ⟨⟨_, rfl, by decide⟩, ⟨_, rfl, by decide⟩⟩

end Masqr.Warp

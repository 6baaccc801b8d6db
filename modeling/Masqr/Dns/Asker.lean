import Mathlib
import Masqr.Dns.Upstream
import Masqr.Text
import Masqr.Time

/-!
Which program asked: the owner of the port a query came from, and the image of that process.

A reading of each protocol's port table is reused for a while, and an image once looked up is
held. The calls of a run meet any tables and any processes.
-/

namespace Masqr.Dns

/-- How long a reading of the port table is reused. -/
def TABLE_TTL : Duration := Duration.millis 1000

/-- The most process images remembered. -/
def MAX_IMAGES : ℕ := 512

/-- A program, in the two forms a policy may name it by. -/
structure Program where
  path : String
  name : String
  deriving DecidableEq

def Program.fromPath (path : String) : Program :=
  let path := toAsciiLowercase path
  ⟨path, String.ofList (path.toList.rtakeWhile fun c => c ≠ '\\' ∧ c ≠ '/')⟩

example : Program.fromPath "C:/Games/Steam/steam.exe" =
    ⟨"c:/games/steam/steam.exe", "steam.exe"⟩ := by decide

/-- Where a query came from, and over which protocol. -/
inductive From
  | udp (address : SocketAddr)
  | tcp (address : SocketAddr)

def From.port : From → ℕ
  | udp address => address.port
  | tcp address => address.port

/-- Local port to owning process. -/
abbrev Owners := ℕ → Option UInt32

structure Snapshot where
  time : Instant
  owners : Owners

/-- The last reading of each protocol's table, and the images looked up. -/
structure Askers where
  udp : Option Snapshot
  tcp : Option Snapshot
  images : Std.ExtTreeMap UInt32 Program

/-! ### What the system tells -/

/-- One row of a table of ports, as the system writes it. -/
structure PortRow where
  dwLocalAddr : UInt32
  dwLocalPort : UInt32
  dwOwningPid : UInt32

/-- What a call finds around it: the tables of ports, where they can be read, the path each
process runs, and which processes this one may open. -/
structure Outside where
  udpTable : Option (List PortRow)
  tcpTable : Option (List PortRow)
  running : UInt32 → Option String
  opens : UInt32 → Bool

/-- A double word with its bytes the other way round. -/
def fromBe32 (w : UInt32) : UInt32 :=
  let mask : UInt32 := 0xff00
  (w <<< 24) ||| ((w &&& mask) <<< 8) ||| ((w >>> 8) &&& mask) ||| (w >>> 24)

def fromBe16 (w : UInt16) : UInt16 := (w <<< 8) ||| (w >>> 8)

/-- The port out of the double word it is stored in: in network order, in the low half. -/
def portOf (stored : UInt32) : ℕ := (fromBe16 (stored &&& 0xffff).toUInt16).toNat

example : portOf 0xdead3500 = 53 := by decide

/-- The owners of the ports whose local address is admitted; a later row replaces an earlier. -/
def readOwners (admits : UInt32 → Bool) (rows : List PortRow) : Owners :=
  rows.foldl (fun owners row =>
    if admits (fromBe32 row.dwLocalAddr) then
      Function.update owners (portOf row.dwLocalPort) (some row.dwOwningPid)
    else owners) fun _ => none

namespace Outside

/-- A query arrives on loopback, and a socket bound to every address can have sent it. -/
def readUdpOwners (o : Outside) : Option Owners :=
  o.udpTable.map (readOwners fun l => l = 0x7f000001 ∨ l = 0)

/-- A connected socket is bound to a real address. -/
def readTcpOwners (o : Outside) : Option Owners :=
  o.tcpTable.map (readOwners fun l => l = 0x7f000001)

def imageOf (o : Outside) (pid : UInt32) : Option String :=
  if o.opens pid then o.running pid else none

/-- The process of that id runs the program. -/
def Runs (o : Outside) (pid : UInt32) (program : Program) : Prop :=
  (o.running pid).map Program.fromPath = some program

end Outside

/-! ### Who is asking -/

def Snapshot.fresh (held : Option Snapshot) (now : Instant) : Bool :=
  held.any fun snapshot => now.since snapshot.time < TABLE_TTL

namespace Askers

def new : Askers := ⟨none, none, ∅⟩

def ownerOf (held : Option Snapshot) (read : Option Owners) (port : ℕ) (now : Instant) :
    Option UInt32 × Option Snapshot :=
  if Snapshot.fresh held now then (held.bind fun snapshot => snapshot.owners port, held)
  else
    match read with
    | none => (none, held)
    | some owners => (owners port, some ⟨now, owners⟩)

/-- One call, and what it finds around it. -/
structure Call where
  source : From
  now : Instant
  outside : Outside

/-- The owner of the port, out of the protocol's own reading. -/
def owner (s : Askers) (c : Call) : Option UInt32 × Askers :=
  match c.source with
  | .udp _ =>
    let (pid, udp) := ownerOf s.udp c.outside.readUdpOwners c.source.port c.now
    (pid, { s with udp })
  | .tcp _ =>
    let (pid, tcp) := ownerOf s.tcp c.outside.readTcpOwners c.source.port c.now
    (pid, { s with tcp })

/-- The program that owns the port a query came from, if it can be established. -/
def ofPort (s : Askers) (c : Call) : Option Program × Askers :=
  match s.owner c with
  | (none, s) => (none, s)
  | (some pid, s) =>
    match s.images[pid]? with
    | some known => (some known, s)
    | none =>
      match c.outside.imageOf pid with
      | none => (none, s)
      | some path =>
        let program := Program.fromPath path
        let images := if MAX_IMAGES ≤ s.images.size then ∅ else s.images
        (some program, { s with images := images.insert pid program })

/-! ### What one call does -/

/-- The call looks a program up for the process, and holds it. -/
def Caches (s : Askers) (c : Call) (pid : UInt32) (program : Program) : Prop :=
  (s.owner c).1 = some pid ∧ s.images[pid]? = none ∧
    (c.outside.imageOf pid).map Program.fromPath = some program

/-- The call finds as many images held as there may be, and forgets them before it holds its
own. -/
def Empties (s : Askers) (c : Call) : Prop :=
  MAX_IMAGES ≤ s.images.size ∧ ∃ pid program, s.Caches c pid program

lemma owner_images (s : Askers) (c : Call) : (s.owner c).2.images = s.images := by
  unfold owner
  split
  · rfl
  · rfl

/-- A program is returned out of those held, or as it is looked up. -/
lemma ofPort_returns {s : Askers} {c : Call} {pid : UInt32} {program : Program}
    (hpid : (s.owner c).1 = some pid) :
    (s.ofPort c).1 = some program ↔ s.images[pid]? = some program ∨ s.Caches c pid program := by
  obtain ⟨s', hs'⟩ : ∃ s', s.owner c = (some pid, s') := ⟨_, Prod.ext hpid rfl⟩
  have himages : s'.images = s.images := by rw [← s.owner_images c, hs']
  simp only [ofPort, Caches, hs', himages]
  cases hheld : s.images[pid]? with
  | some known => simp
  | none => cases hopen : c.outside.imageOf pid <;> simp

lemma Caches.unique {s : Askers} {c : Call} {pid pid' : UInt32} {program program' : Program}
    (h : s.Caches c pid program) (h' : s.Caches c pid' program') :
    pid = pid' ∧ program = program' := by
  obtain rfl : pid = pid' := Option.some.inj (h.1.symm.trans h'.1)
  exact ⟨rfl, Option.some.inj (h.2.2.symm.trans h'.2.2)⟩

lemma ofPort_caches {s : Askers} {c : Call} {pid : UInt32} {program : Program}
    (h : s.Caches c pid program) : (s.ofPort c).2.images =
      (if MAX_IMAGES ≤ s.images.size then ∅ else s.images).insert pid program := by
  obtain ⟨hpid, hheld, hopen⟩ := h
  obtain ⟨s', hs'⟩ : ∃ s', s.owner c = (some pid, s') := ⟨_, Prod.ext hpid rfl⟩
  have himages : s'.images = s.images := by rw [← s.owner_images c, hs']
  obtain ⟨path, hpath, rfl⟩ := Option.map_eq_some_iff.mp hopen
  simp only [ofPort, hs', himages, hheld, hpath]

lemma ofPort_same {s : Askers} {c : Call} (h : ∀ pid program, ¬ s.Caches c pid program) :
    (s.ofPort c).2.images = s.images := by
  obtain ⟨o, s', hs'⟩ : ∃ o s', s.owner c = (o, s') := ⟨_, _, rfl⟩
  have himages : s'.images = s.images := by rw [← s.owner_images c, hs']
  cases o with
  | none => simp only [ofPort, hs', himages]
  | some pid =>
    cases hheld : s.images[pid]? with
    | some known => simp only [ofPort, hs', himages, hheld]
    | none =>
      cases hopen : c.outside.imageOf pid with
      | none => simp only [ofPort, hs', himages, hheld, hopen]
      | some path => exact absurd ⟨by rw [hs'], hheld, by rw [hopen]; rfl⟩ (h pid (.fromPath path))

/-- **What is held after a call** is what it looked up, and what was held before when the call
did not empty it. -/
lemma ofPort_images (s : Askers) (c : Call) (pid : UInt32) (program : Program) :
    (s.ofPort c).2.images[pid]? = some program ↔
      s.Caches c pid program ∨ s.images[pid]? = some program ∧ ¬ s.Empties c := by
  by_cases hcaches : ∃ pid' program', s.Caches c pid' program'
  · obtain ⟨pid', program', h⟩ := hcaches
    have hempties : s.Empties c ↔ MAX_IMAGES ≤ s.images.size :=
      ⟨And.left, fun hfull => ⟨hfull, pid', program', h⟩⟩
    rw [ofPort_caches h, Std.ExtTreeMap.getElem?_insert, hempties]
    by_cases he : pid' = pid
    · subst he
      have hheld := h.2.1
      have hiff : s.Caches c pid' program ↔ program' = program :=
        ⟨fun h' => (h.unique h').2, fun h' => h' ▸ h⟩
      simp [hheld, hiff]
    · have hne : ¬ s.Caches c pid program := fun h' => he (h.unique h').1
      rw [if_neg (by simpa using he)]
      split
      · next hfull => simp [hne, hfull]
      · next hfull => simp [hne, hfull]
  · have hnone : ∀ pid program, ¬ s.Caches c pid program := by
      intro pid' program' h
      exact hcaches ⟨pid', program', h⟩
    rw [ofPort_same hnone]
    simp [hnone, Empties]

/-! ### Runs -/

/-- What is held after the calls, from nothing held. -/
def after (calls : List Call) : Askers := calls.foldl (fun s c => (s.ofPort c).2) new

/-- The run makes the call at the place, with so much held. -/
def At (calls : List Call) (i : ℕ) (c : Call) (s : Askers) : Prop :=
  calls[i]? = some c ∧ after (calls.take i) = s

def CachedAt (calls : List Call) (i : ℕ) (pid : UInt32) (program : Program) : Prop :=
  ∃ c s, At calls i c s ∧ s.Caches c pid program

def EmptiedAt (calls : List Call) (i : ℕ) : Prop := ∃ c s, At calls i c s ∧ s.Empties c

/-- The table is read again, and the process is nowhere in it. -/
def Absent (held : Option Snapshot) (read : Option Owners) (now : Instant) (pid : UInt32) : Prop :=
  Snapshot.fresh held now = false ∧ ∃ owners, read = some owners ∧ ∀ port, owners port ≠ some pid

def AbsentUdp (s : Askers) (c : Call) (pid : UInt32) : Prop :=
  (∃ address, c.source = .udp address) ∧ Absent s.udp c.outside.readUdpOwners c.now pid

def AbsentTcp (s : Askers) (c : Call) (pid : UInt32) : Prop :=
  (∃ address, c.source = .tcp address) ∧ Absent s.tcp c.outside.readTcpOwners c.now pid

/-- Before the place, the program was looked up for the process, and then both tables were read
again without it. -/
def Gone (calls : List Call) (k : ℕ) (pid : UInt32) (program : Program) : Prop :=
  ∃ i, CachedAt calls i pid program ∧
    (∃ j c s, i < j ∧ j < k ∧ At calls j c s ∧ s.AbsentUdp c pid) ∧
    ∃ j c s, i < j ∧ j < k ∧ At calls j c s ∧ s.AbsentTcp c pid

/-- Before the place, the program was looked up for the process, and what is held was not
emptied since. -/
def Remembered (calls : List Call) (k : ℕ) (pid : UInt32) (program : Program) : Prop :=
  ∃ i < k, CachedAt calls i pid program ∧ ∀ j, i < j → j < k → ¬ EmptiedAt calls j

lemma after_snoc {calls : List Call} {k : ℕ} {c : Call} {s : Askers} (h : At calls k c s) :
    after (calls.take (k + 1)) = (s.ofPort c).2 := by
  rw [List.take_add_one, h.1, Option.toList_some, after, List.foldl_append, ← h.2]
  rfl

lemma At.unique {calls : List Call} {k : ℕ} {c c' : Call} {s s' : Askers} (h : At calls k c s)
    (h' : At calls k c' s') : c = c' ∧ s = s' :=
  ⟨Option.some.inj (h.1.symm.trans h'.1), h.2.symm.trans h'.2⟩

/-- **An image is held exactly where it was looked up and not emptied since**: no reading of a
table takes it away. -/
theorem held_iff (calls : List Call) {k : ℕ} (hk : k ≤ calls.length) (pid : UInt32)
    (program : Program) :
    (after (calls.take k)).images[pid]? = some program ↔ Remembered calls k pid program := by
  induction k with
  | zero => simp [after, new, Remembered]
  | succ k ih =>
    obtain ⟨c, hc⟩ : ∃ c, calls[k]? = some c := ⟨_, List.getElem?_eq_getElem hk⟩
    have hat : At calls k c (after (calls.take k)) := ⟨hc, rfl⟩
    rw [after_snoc hat, ofPort_images, ih (Nat.le_of_succ_le hk)]
    constructor
    · rintro (hcaches | ⟨⟨i, hi, hcached, hkept⟩, hempties⟩)
      · exact ⟨k, Nat.lt_succ_self k, ⟨c, _, hat, hcaches⟩, fun j hj hjk => by omega⟩
      · refine ⟨i, hi.trans (Nat.lt_succ_self k), hcached, fun j hj hjk => ?_⟩
        rcases Nat.lt_succ_iff_lt_or_eq.mp hjk with hjk | rfl
        · exact hkept j hj hjk
        · rintro ⟨c', s', hat', h⟩
          obtain ⟨rfl, rfl⟩ := hat.unique hat'
          exact hempties h
    · rintro ⟨i, hi, hcached, hkept⟩
      rcases Nat.lt_succ_iff_lt_or_eq.mp hi with hi | rfl
      · refine .inr ⟨⟨i, hi, hcached, fun j hj hjk => hkept j hj (by omega)⟩, fun h => ?_⟩
        exact hkept k hi (Nat.lt_succ_self k) ⟨c, _, hat, h⟩
      · obtain ⟨c', s', hat', h⟩ := hcached
        obtain ⟨rfl, rfl⟩ := hat.unique hat'
        exact .inl h

/-- **A program that has gone is forgotten exactly where** its process id is not given to
another program before what is held has been emptied for its bound. -/
theorem forgotten_iff (calls : List Call) :
    (∀ k c s pid program, At calls k c s → (s.owner c).1 = some pid → Gone calls k pid program →
      (s.ofPort c).1 = some program → c.outside.Runs pid program) ↔
    ∀ k c s pid program, At calls k c s → (s.owner c).1 = some pid → Gone calls k pid program →
      Remembered calls k pid program → c.outside.Runs pid program := by
  have hheld : ∀ {k c s pid program}, At calls k c s →
      (s.images[pid]? = some program ↔ Remembered calls k pid program) := by
    intro k c s pid program hat
    have hk : k < calls.length := (List.getElem?_eq_some_iff.mp hat.1).1
    rw [← hat.2, held_iff calls hk.le]
  constructor
  · intro h k c s pid program hat hpid hgone hremembered
    refine h k c s pid program hat hpid hgone ?_
    exact (ofPort_returns hpid).mpr (.inl ((hheld hat).mpr hremembered))
  · intro h k c s pid program hat hpid hgone hreturns
    rcases (ofPort_returns hpid).mp hreturns with hold | hcaches
    · exact h k c s pid program hat hpid hgone ((hheld hat).mp hold)
    · -- looked up now: the process could be opened, and runs the program
      have hopen := hcaches.2.2
      unfold Outside.imageOf at hopen
      split at hopen
      · exact hopen
      · cases hopen

/-! ### A process id used again -/

def row (port : UInt32) (pid : UInt32) : PortRow := ⟨0x0100007f, port, pid⟩

def browser : String := "C:\\browser.exe"

def game : String := "C:\\game.exe"

/-- The tables and the one process met by a call; every process may be opened. -/
def around (udpTable : List PortRow) (path : String) : Outside :=
  ⟨some udpTable, some [], fun _ => some path, fun _ => true⟩

/-- The browser asks, both tables are read without it, and then the game asks under its id. -/
def reuse : List Call :=
  [⟨.udp ⟨.v4 0x7f000001, 5000⟩, 0, around [row 0x8813 7] browser⟩,
    ⟨.udp ⟨.v4 0x7f000001, 5000⟩, Duration.secs 1, around [] game⟩,
    ⟨.tcp ⟨.v4 0x7f000001, 5000⟩, Duration.secs 1, around [] game⟩,
    ⟨.udp ⟨.v4 0x7f000001, 6000⟩, Duration.secs 2, around [row 0x7017 7] game⟩]

/-- The program of the browser is returned for the game: its id was in neither table, and the
image looked up for it is held all the same. -/
theorem reused_id : ¬ ∀ calls : List Call, ∀ k c s pid program, At calls k c s →
    (s.owner c).1 = some pid → Gone calls k pid program → (s.ofPort c).1 = some program →
    c.outside.Runs pid program := by
  intro h
  have hgone : Gone reuse 3 7 (.fromPath browser) := by
    refine ⟨0, ⟨_, _, ⟨rfl, rfl⟩, ?_⟩, ⟨1, _, _, by omega, by omega, ⟨rfl, rfl⟩, ?_⟩,
      ⟨2, _, _, by omega, by omega, ⟨rfl, rfl⟩, ?_⟩⟩
    · exact ⟨rfl, rfl, rfl⟩
    · exact ⟨⟨_, rfl⟩, rfl, _, rfl, fun port h => nomatch h⟩
    · exact ⟨⟨_, rfl⟩, rfl, _, rfl, fun port h => nomatch h⟩
  have hruns : some (Program.fromPath game) = some (Program.fromPath browser) :=
    h reuse 3 _ _ 7 (.fromPath browser) ⟨rfl, rfl⟩ rfl hgone rfl
  exact absurd hruns (by decide)

end Askers

end Masqr.Dns

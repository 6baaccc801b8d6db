import Mathlib
import Masqr.Lib.Select
import Masqr.Net

/-!
The line side of a destination: the interface the stack would pick with this core's adapter
left out.
-/

namespace Masqr

/-- The bit of an address at a place counted from its first. -/
def IpAddr.bit : IpAddr → ℕ → Bool
  | .v4 a, i => a.getMsbD i
  | .v6 a, i => a.getMsbD i

namespace Tun

def AF_INET : UInt16 := 2
def AF_INET6 : UInt16 := 23

/-- An address as IP Helper returns it: a family, and both readings of what is stored. -/
structure SockaddrInet where
  family : UInt16
  ipv4 : Ipv4Addr
  ipv6 : Ipv6Addr
  deriving DecidableEq

/-- A row of the forwarding table. -/
structure ForwardRow where
  interfaceLuid : UInt64
  destination : SockaddrInet
  prefixLength : UInt8
  metric : UInt32
  deriving DecidableEq

/-- A row of the interface table. -/
structure InterfaceRow where
  connected : Bool
  metric : UInt32

/-- What the system answers, `none` where it answers with a failure. -/
structure IpHelper where
  getIpForwardTable : UInt16 → Option (List ForwardRow)
  getIpInterfaceEntry : UInt16 → UInt64 → Option InterfaceRow

/-- One route that could carry a packet to the destination. -/
structure Candidate where
  luid : UInt64
  prefixLength : UInt8
  metric : UInt32
  deriving DecidableEq

/-- By prefix, and where the prefixes are the same by metric, the lowest being the greatest. -/
def Candidate.cmp (a b : Candidate) : Ordering :=
  (compare a.prefixLength b.prefixLength).then (compare b.metric a.metric)

/-- The interface the stack would pick among these. -/
def choose (candidates : List Candidate) : Option UInt64 :=
  (Lib.maxBy Candidate.cmp candidates).map (·.luid)

/-- An address out of the shape IP Helper returns. -/
def addressOf (raw : SockaddrInet) : Option IpAddr :=
  if raw.family = AF_INET then some (.v4 raw.ipv4)
  else if raw.family = AF_INET6 then some (.v6 raw.ipv6)
  else none

/-- Whether two words agree under the mask of a prefix. -/
def agree {w : ℕ} (length : ℕ) (a b : BitVec w) : Bool :=
  length = 0 ||
    let mask := BitVec.allOnes w <<< (w - length)
    a &&& mask = b &&& mask

/-- Whether a prefix covers an address of the same family. -/
def covers (leading : IpAddr) (length : UInt8) (destination : IpAddr) : Bool :=
  match leading, destination with
  | .v4 leading, .v4 destination => agree (min length.toNat 32) leading destination
  | .v6 leading, .v6 destination => agree (min length.toNat 128) leading destination
  | _, _ => false

/-- An interface's metric, where it is connected. -/
def interfaceMetric (system : IpHelper) (family : UInt16) (luid : UInt64) : Option UInt32 :=
  match system.getIpInterfaceEntry family luid with
  | none => none
  | some row => if !row.connected then none else some row.metric

def saturatingAdd (a b : UInt32) : UInt32 :=
  if a.toNat + b.toNat < 2 ^ 32 then a + b else 4294967295

/-- The interfaces whose metric was read so far, and the candidates found. -/
structure Lookup where
  interfaces : Std.HashMap UInt64 (Option UInt32)
  candidates : List Candidate

variable (system : IpHelper) (family : UInt16) (ours : UInt64) (destination : IpAddr)

/-- One row of the table. An interface's metric is read when the first of its rows asks. -/
def Lookup.row (s : Lookup) (row : ForwardRow) : Lookup :=
  let luid := row.interfaceLuid
  if luid = ours then s
  else
    match addressOf row.destination with
    | none => s
    | some leading =>
      if !covers leading row.prefixLength destination then s
      else
        let (metric, interfaces) := match s.interfaces[luid]? with
          | some metric => (metric, s.interfaces)
          | none =>
            let metric := interfaceMetric system family luid
            (metric, s.interfaces.insert luid metric)
        match metric with
        | none => { s with interfaces }
        | some interface =>
          ⟨interfaces, s.candidates ++
            [⟨luid, row.prefixLength, saturatingAdd row.metric interface⟩]⟩

/-- Every route in the table that covers the destination, on a connected interface other than
`ours`. -/
def routesTo : List Candidate :=
  match system.getIpForwardTable family with
  | none => []
  | some rows => (rows.foldl (Lookup.row system family ours destination) ⟨∅, []⟩).candidates

/-! ### What a prefix covers -/

lemma agree_iff {w length : ℕ} {a b : BitVec w} (hle : length ≤ w) :
    agree length a b ↔ ∀ i < length, a.getMsbD i = b.getMsbD i := by
  have hmask : ∀ i < w, (BitVec.allOnes w <<< (w - length)).getMsbD i = decide (i < length) := by
    intro i hi
    rw [BitVec.getMsbD_shiftLeft, BitVec.getMsbD_allOnes]
    simp only [decide_eq_decide]
    omega
  unfold agree
  rw [Bool.or_eq_true, decide_eq_true_eq, decide_eq_true_eq]
  constructor
  · rintro (rfl | h) i hi
    · omega
    · have hbit := congrArg (fun v => v.getMsbD i) h
      simpa [BitVec.getMsbD_and, hmask i (by omega), hi] using hbit
  · intro h
    right
    refine BitVec.eq_of_getMsbD_eq fun i hi => ?_
    rw [BitVec.getMsbD_and, BitVec.getMsbD_and, hmask i hi]
    by_cases hlt : i < length
    · rw [h i hlt]
    · simp [hlt]

/-- The bits past the end of a word are all the same, so a length that is too long asks for
the whole of it. -/
lemma agree_min_iff {w length : ℕ} {a b : BitVec w} :
    agree (min length w) a b ↔ ∀ i < length, a.getMsbD i = b.getMsbD i := by
  rw [agree_iff (Nat.min_le_right _ _)]
  constructor
  · intro h i hi
    by_cases hw : i < w
    · exact h i (by omega)
    · rw [BitVec.getMsbD_of_ge _ _ (by omega), BitVec.getMsbD_of_ge _ _ (by omega)]
  · exact fun h i hi => h i (by omega)

/-- **A prefix covers the addresses of its family that start with its bits.** -/
theorem covers_iff {leading destination : IpAddr} {length : UInt8} :
    covers leading length destination ↔ leading.isIpv4 = destination.isIpv4 ∧
      ∀ i < length.toNat, leading.bit i = destination.bit i := by
  cases leading <;> cases destination
  · simp only [covers, IpAddr.isIpv4, IpAddr.bit, true_and]
    exact agree_min_iff
  · simp [covers, IpAddr.isIpv4]
  · simp [covers, IpAddr.isIpv4]
  · simp only [covers, IpAddr.isIpv4, IpAddr.bit, true_and]
    exact agree_min_iff

/-! ### The rows that could carry a packet -/

/-- The sum Windows compares: a route's metric and its interface's, held at the greatest
number of their width. -/
def sum (route interface : UInt32) : ℕ := min (route.toNat + interface.toNat) (2 ^ 32 - 1)

lemma toNat_saturatingAdd (a b : UInt32) : (saturatingAdd a b).toNat = sum a b := by
  have ha := a.toNat_lt
  have hb := b.toNat_lt
  unfold saturatingAdd sum
  split
  · next h => rw [UInt32.toNat_add, Nat.mod_eq_of_lt h]; omega
  · next h => rw [show (4294967295 : UInt32).toNat = 4294967295 by rfl]; omega

/-- A row is a way out to the destination, at a sum of metrics: it is on a connected
interface other than `ours`, and its prefix covers the destination. -/
structure WayOut (row : ForwardRow) (cost : ℕ) : Prop where
  other : row.interfaceLuid ≠ ours
  covered : ∃ leading, addressOf row.destination = some leading ∧
    leading.isIpv4 = destination.isIpv4 ∧
    ∀ i < row.prefixLength.toNat, leading.bit i = destination.bit i
  connected : ∃ interface, system.getIpInterfaceEntry family row.interfaceLuid = some interface ∧
    interface.connected ∧ cost = sum row.metric interface.metric

/-- What a row comes to with every interface's metric read anew. -/
def candidate (row : ForwardRow) : Option Candidate :=
  if row.interfaceLuid = ours then none
  else
    match addressOf row.destination with
    | none => none
    | some leading =>
      if !covers leading row.prefixLength destination then none
      else (interfaceMetric system family row.interfaceLuid).map fun interface =>
        ⟨row.interfaceLuid, row.prefixLength, saturatingAdd row.metric interface⟩

variable {system family ours destination}

/-- Every metric read so far is the interface's. -/
def Lookup.Sound (system : IpHelper) (family : UInt16) (s : Lookup) : Prop :=
  ∀ luid metric, s.interfaces[luid]? = some metric → metric = interfaceMetric system family luid

variable (ours destination) in
lemma Lookup.Sound.row {s : Lookup} (h : s.Sound system family) (row : ForwardRow) :
    (s.row system family ours destination row).Sound system family ∧
      (s.row system family ours destination row).candidates =
        s.candidates ++ (candidate system family ours destination row).toList := by
  unfold Lookup.row candidate
  dsimp only
  split
  · simp [h]
  split
  · simp [h]
  split
  · simp [h]
  cases hread : s.interfaces[row.interfaceLuid]? with
  | some metric =>
    obtain rfl := h _ _ hread
    cases interfaceMetric system family row.interfaceLuid <;> simpa [Sound] using h
  | none =>
    have hinsert : ∀ luid metric, (s.interfaces.insert row.interfaceLuid
        (interfaceMetric system family row.interfaceLuid))[luid]? = some metric →
        metric = interfaceMetric system family luid := by
      intro luid metric hm
      rw [Std.HashMap.getElem?_insert] at hm
      split at hm
      · next he => rw [← eq_of_beq he]; exact (Option.some.inj hm).symm
      · exact h _ _ hm
    cases hm : interfaceMetric system family row.interfaceLuid <;>
      simp only [hm] at hinsert <;> simpa [Sound] using hinsert

/-- The metrics kept while the table is walked change nothing: the candidates are those the
rows come to one by one. -/
lemma Lookup.Sound.rows {rows : List ForwardRow} {s : Lookup} (h : s.Sound system family) :
    (rows.foldl (Lookup.row system family ours destination) s).candidates =
      s.candidates ++ rows.filterMap (candidate system family ours destination) := by
  induction rows generalizing s with
  | nil => simp
  | cons row rows ih =>
    obtain ⟨hsound, hrow⟩ := h.row ours destination row
    rw [List.foldl_cons, ih hsound, hrow, List.append_assoc]
    cases hc : candidate system family ours destination row <;> simp [hc]

/-- The rows of the table of a family, none where it cannot be read. -/
def IpHelper.rows (system : IpHelper) (family : UInt16) : List ForwardRow :=
  (system.getIpForwardTable family).getD []

lemma routesTo_eq : routesTo system family ours destination =
    (system.rows family).filterMap (candidate system family ours destination) := by
  unfold routesTo IpHelper.rows
  cases system.getIpForwardTable family with
  | none => rfl
  | some rows =>
    have hempty : (⟨∅, []⟩ : Lookup).Sound system family := by
      intro luid metric h
      simp at h
    exact hempty.rows

lemma interfaceMetric_eq_some {luid : UInt64} {metric : UInt32} :
    interfaceMetric system family luid = some metric ↔
      ∃ interface, system.getIpInterfaceEntry family luid = some interface ∧
        interface.connected ∧ interface.metric = metric := by
  unfold interfaceMetric
  cases system.getIpInterfaceEntry family luid with
  | none => simp
  | some interface => cases h : interface.connected <;> simp [h]

lemma candidate_eq_some {row : ForwardRow} {c : Candidate} :
    candidate system family ours destination row = some c ↔
      WayOut system family ours destination row c.metric.toNat ∧
        c.luid = row.interfaceLuid ∧ c.prefixLength = row.prefixLength := by
  unfold candidate
  constructor
  · intro h
    split at h
    · cases h
    next hours =>
    split at h
    · cases h
    next leading hleading =>
    split at h
    · cases h
    next hcovers =>
    obtain ⟨metric, hmetric, rfl⟩ := Option.map_eq_some_iff.mp h
    obtain ⟨interface, hentry, hup, rfl⟩ := interfaceMetric_eq_some.mp hmetric
    have hcovers : covers leading row.prefixLength destination := by simpa using hcovers
    exact ⟨⟨hours, ⟨leading, hleading, covers_iff.mp hcovers⟩,
      ⟨interface, hentry, hup, toNat_saturatingAdd _ _⟩⟩, rfl, rfl⟩
  · rintro ⟨⟨hours, ⟨leading, hleading, hcovers⟩, ⟨interface, hentry, hup, hcost⟩⟩, hluid, hlength⟩
    have hmetric := interfaceMetric_eq_some.mpr ⟨interface, hentry, hup, rfl⟩
    rw [if_neg hours, hleading, hmetric]
    simp only [covers_iff.mpr hcovers, Bool.not_true, Bool.false_eq_true, if_false, Option.map_some]
    rw [← toNat_saturatingAdd] at hcost
    rw [← hluid, ← hlength, ← UInt32.toNat_inj.mp hcost]

lemma mem_routesTo {c : Candidate} : c ∈ routesTo system family ours destination ↔
    ∃ row ∈ system.rows family, WayOut system family ours destination row c.metric.toNat ∧
      c.luid = row.interfaceLuid ∧ c.prefixLength = row.prefixLength := by
  rw [routesTo_eq, List.mem_filterMap]
  simp only [candidate_eq_some]

/-- Every way out has its candidate. -/
lemma WayOut.candidate {row : ForwardRow} {cost : ℕ} (hrow : row ∈ system.rows family)
    (h : WayOut system family ours destination row cost) :
    ∃ c ∈ routesTo system family ours destination,
      c.prefixLength = row.prefixLength ∧ c.metric.toNat = cost := by
  obtain ⟨interface, -, -, hcost⟩ := h.connected
  rw [← toNat_saturatingAdd] at hcost
  exact ⟨⟨_, _, saturatingAdd row.metric interface.metric⟩,
    mem_routesTo.mpr ⟨row, hrow, hcost ▸ h, rfl, rfl⟩, rfl, hcost.symm⟩

/-! ### The row picked -/

instance : Std.TransCmp Candidate.cmp :=
  have : Std.TransCmp fun a b : Candidate => compareOn Candidate.metric b a :=
    Std.TransCmp.opposite
  inferInstanceAs (Std.TransCmp (compareLex (compareOn Candidate.prefixLength)
    fun a b => compareOn Candidate.metric b a))

lemma Candidate.cmp_isLE {a b : Candidate} (h : (Candidate.cmp a b).isLE) :
    a.prefixLength ≤ b.prefixLength ∧
      (a.prefixLength = b.prefixLength → b.metric.toNat ≤ a.metric.toNat) := by
  obtain ⟨hlength, hmetric⟩ := Ordering.isLE_then_iff_and.mp h
  refine ⟨Std.isLE_compare.mp hlength, fun he => ?_⟩
  rcases hmetric with hlt | hle
  · simp [he] at hlt
  · exact UInt32.le_iff_toNat_le.mp (Std.isLE_compare.mp hle)

/-- **The route picked is the one the stack would pick.** It is a way out to the destination,
none has a longer prefix, none with a prefix as long costs less, and nothing is picked only
where there is no way out. -/
theorem choose_routesTo (system : IpHelper) (family : UInt16) (ours : UInt64)
    (destination : IpAddr) :
    (∀ luid, choose (routesTo system family ours destination) = some luid →
      ∃ row ∈ system.rows family, ∃ cost, row.interfaceLuid = luid ∧
        WayOut system family ours destination row cost ∧
        ∀ other ∈ system.rows family, ∀ cost', WayOut system family ours destination other cost' →
          other.prefixLength ≤ row.prefixLength ∧
            (other.prefixLength = row.prefixLength → cost ≤ cost')) ∧
      (choose (routesTo system family ours destination) = none ↔
        ∀ row ∈ system.rows family, ∀ cost, ¬WayOut system family ours destination row cost) := by
  constructor
  · intro luid h
    obtain ⟨c, hmax, rfl⟩ := Option.map_eq_some_iff.mp h
    obtain ⟨hmem, hgreatest⟩ := Lib.maxBy_spec hmax
    obtain ⟨row, hrow, hout, hluid, hlength⟩ := mem_routesTo.mp hmem
    refine ⟨row, hrow, c.metric.toNat, hluid.symm, hout, fun other hother cost' hway => ?_⟩
    obtain ⟨c', hmem', hlength', hcost'⟩ := hway.candidate hother
    have hle := Candidate.cmp_isLE (hgreatest c' hmem')
    rwa [hlength', hlength, hcost'] at hle
  · rw [choose, Option.map_eq_none_iff, Lib.maxBy_eq_none]
    constructor
    · intro hnil row hrow cost hway
      obtain ⟨c, hmem, -⟩ := hway.candidate hrow
      simp [hnil] at hmem
    · intro hnone
      refine List.eq_nil_iff_forall_not_mem.mpr fun c hmem => ?_
      obtain ⟨row, hrow, hout, -⟩ := mem_routesTo.mp hmem
      exact hnone row hrow _ hout

end Tun

end Masqr

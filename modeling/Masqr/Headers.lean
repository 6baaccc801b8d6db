import Mathlib
import Masqr.Lib.OnesComplement
import Masqr.Queue.Packet
import Masqr.Transport.ConnectIp

/-!
The two places that rewrite a header: a hop less on the way out, and a congestion mark in the queue.

Both are here a second time with every index, run of bytes and sum that could stop them, as the
language checks them, and neither is ever stopped. What they leave is the header as it was apart
from the field they write, and, over IPv4, a checksum that balances the whole of it.
-/

namespace Masqr.Headers

open Masqr.Lib Masqr.Queue Masqr.Transport

/-! ### The checksum -/

/-- The words of a run of bytes. -/
def words : List UInt8 → List ℕ
  | hi :: lo :: rest => (hi.toNat * 256 + lo.toNat) :: words rest
  | _ => []

/-- The ones'-complement sum over a whole IPv4 header, as long as it says it is. -/
def headerSum (packet : Packet) : ℕ :=
  OnesComplement.sum 0xffff (words (packet.take (headerLen packet)))

lemma words_le (bytes : List UInt8) : ∀ w ∈ words bytes, w ≤ 0xffff := by
  induction bytes using words.induct with
  | case1 hi lo rest ih =>
    intro w hw
    rw [words, List.mem_cons] at hw
    rcases hw with rfl | hw
    · have hhi := hi.toNat_lt
      have hlo := lo.toNat_lt
      omega
    · exact ih w hw
  | case2 bytes hshort =>
    intro w hw
    rw [words] at hw
    · cases hw
    · exact hshort

lemma words_append {front : List UInt8} (n : ℕ) (h : front.length = 2 * n) (back : List UInt8) :
    words (front ++ back) = words front ++ words back := by
  induction n generalizing front with
  | zero =>
    obtain rfl := List.length_eq_zero_iff.1 h
    rfl
  | succ n ih =>
    obtain _ | ⟨hi, _ | ⟨lo, rest⟩⟩ := front
    · simp at h
    · simp at h
      omega
    · have hrest : rest.length = 2 * n := by
        simp only [List.length_cons] at h
        omega
      simp only [List.cons_append, words, ih hrest]

/-- The loop that folds the carries in comes to the word of the number. -/
lemma carry_run (n : ℕ) : Ip.carry.run n = OnesComplement.residue 0xffff n := by
  refine Ip.carry.run_rule (fun n r => r = OnesComplement.residue 0xffff n) (fun n r hb => ?_)
    (fun n n' r hb ih => ?_) n
  · simp only [Ip.carry] at hb
    split_ifs at hb with hsmall
    cases hb
    exact (OnesComplement.residue_of_le (by omega)).symm
  · simp only [Ip.carry] at hb
    split_ifs at hb with hsmall
    cases hb
    have hsplit : n = n % 65536 + n / 65536 + 0xffff * (n / 65536) := by omega
    calc r = OnesComplement.residue 0xffff (n % 65536 + n / 65536) := ih
      _ = OnesComplement.residue 0xffff (n % 65536 + n / 65536 + 0xffff * (n / 65536)) :=
          (OnesComplement.residue_add_mul (by omega) _).symm
      _ = OnesComplement.residue 0xffff n := by rw [← hsplit]

lemma foldl_headerWords_after (bytes : List UInt8) {k : ℕ} (hk : 5 < k) (total : ℕ) :
    (Ip.headerWords k bytes).foldl Ip.Sum.add total = total + (words bytes).sum := by
  induction bytes using words.induct generalizing k total with
  | case1 hi lo rest ih =>
    rw [Ip.headerWords, if_neg (by omega), List.foldl_cons, ih (by omega), words, List.sum_cons]
    simp only [Ip.Sum.add]
    omega
  | case2 bytes hshort =>
    rw [Ip.headerWords, words]
    · simp
    · exact hshort
    · exact hshort

lemma foldl_headerWords_before {front : List UInt8} (n k : ℕ) (h : front.length = 2 * n)
    (hk : k + n ≤ 5) (back : List UInt8) (total : ℕ) :
    (Ip.headerWords k (front ++ back)).foldl Ip.Sum.add total =
      (Ip.headerWords (k + n) back).foldl Ip.Sum.add (total + (words front).sum) := by
  induction n generalizing front k total with
  | zero =>
    obtain rfl := List.length_eq_zero_iff.1 h
    simp [words]
  | succ n ih =>
    obtain _ | ⟨hi, _ | ⟨lo, rest⟩⟩ := front
    · simp at h
    · simp at h
      omega
    · have hrest : rest.length = 2 * n := by
        simp only [List.length_cons] at h
        omega
      have hnext := ih (k + 1) hrest (by omega) (total + (hi.toNat * 256 + lo.toNat))
      rw [List.cons_append, List.cons_append, Ip.headerWords, if_neg (by omega), List.foldl_cons]
      simp only [Ip.Sum.add, words, List.sum_cons]
      rw [hnext, show k + 1 + n = k + (n + 1) by omega, Nat.add_assoc]

/-- The checksum of a header adds up all its words but the sixth. -/
lemma ipv4Checksum_split {front back : List UInt8} (h : front.length = 10) (hi lo : UInt8) :
    Ip.ipv4Checksum (front ++ hi :: lo :: back) =
      0xffff - OnesComplement.residue 0xffff ((words front).sum + (words back).sum) := by
  unfold Ip.ipv4Checksum Ip.Sum.fold
  rw [foldl_headerWords_before 5 0 h le_rfl, Ip.headerWords, if_pos rfl,
    foldl_headerWords_after back (by omega), carry_run, Nat.zero_add]

lemma ipv4Checksum_le (header : List UInt8) : Ip.ipv4Checksum header ≤ 0xffff := Nat.sub_le _ _

/-- A number of two bytes is the word they are. -/
lemma exists_word {n : ℕ} (h : n ≤ 0xffff) :
    ∃ hi lo : UInt8, toBe 2 n = [hi, lo] ∧ hi.toNat * 256 + lo.toNat = n := by
  refine ⟨UInt8.ofNat (n / 256), UInt8.ofNat n, by simp [toBe], ?_⟩
  rw [UInt8.toNat_ofNat', UInt8.toNat_ofNat']
  omega

/-- **A header that carries its own checksum sums to all ones.** -/
theorem sum_of_checksum {front : List UInt8} (h : front.length = 10) (hi lo : UInt8)
    (back : List UInt8) :
    OnesComplement.sum 0xffff (words (front ++
      toBe 2 (Ip.ipv4Checksum (front ++ hi :: lo :: back)) ++ back)) = 0xffff := by
  have hm : 0 < 0xffff := by omega
  obtain ⟨hi', lo', hbytes, hword⟩ := exists_word (ipv4Checksum_le (front ++ hi :: lo :: back))
  have hfield : words (toBe 2 (Ip.ipv4Checksum (front ++ hi :: lo :: back)) ++ back) =
      Ip.ipv4Checksum (front ++ hi :: lo :: back) :: words back := by
    rw [hbytes, List.cons_append, List.singleton_append, words, hword]
  rw [OnesComplement.sum_eq_residue hm (words_le _), List.append_assoc,
    words_append 5 h, hfield, List.sum_append, List.sum_cons, ipv4Checksum_split h]
  generalize (words front).sum = before
  generalize (words back).sum = after
  calc OnesComplement.residue 0xffff
        (before + (0xffff - OnesComplement.residue 0xffff (before + after) + after))
      = OnesComplement.residue 0xffff
          (before + after + (0xffff - OnesComplement.residue 0xffff (before + after))) := by
        congr 1
        omega
    _ = 0xffff := OnesComplement.residue_add_complement hm _

/-- Two bytes of a run, and what is before and after them. -/
lemma exists_split {bytes : List UInt8} {k : ℕ} (h : k + 2 ≤ bytes.length) :
    ∃ front hi lo back, bytes = front ++ hi :: lo :: back ∧ front.length = k := by
  have hk : k < bytes.length := by omega
  have hk' : k + 1 < bytes.length := by omega
  refine ⟨bytes.take k, bytes[k], bytes[k + 1], bytes.drop (k + 2), ?_, ?_⟩
  · rw [← List.drop_eq_getElem_cons hk', ← List.drop_eq_getElem_cons hk, List.take_append_drop]
  · rw [List.length_take]
    omega

lemma copyFrom_split {front back : List UInt8} {k : ℕ} (h : front.length = k)
    (hi lo hi' lo' : UInt8) :
    copyFrom (front ++ hi :: lo :: back) k [hi', lo'] = front ++ [hi', lo'] ++ back := by
  subst h
  have hdrop : (front ++ hi :: lo :: back).drop (front.length + 2) = back := by
    rw [List.drop_append, List.drop_eq_nil_of_le (by omega)]
    simp
  unfold copyFrom
  rw [List.take_left, List.length_cons, List.length_singleton, hdrop]

lemma set_set_eq {bytes : List UInt8} {k : ℕ} (h : k + 2 ≤ bytes.length) (hi lo : UInt8) :
    (bytes.set k hi).set (k + 1) lo = copyFrom bytes k [hi, lo] := by
  obtain ⟨front, x, y, back, rfl, hfront⟩ := exists_split h
  rw [copyFrom_split hfront, List.set_append_right _ _ hfront.le, hfront, Nat.sub_self,
    List.set_cons_zero, List.set_append_right _ _ (by omega), hfront, Nat.add_sub_cancel_left,
    List.set_cons_succ, List.set_cons_zero]
  simp

/-! ### With every index checked -/

namespace Checked

/-- One byte, by its place. -/
def index (bytes : List UInt8) (k : ℕ) : Option UInt8 := bytes[k]?

/-- One byte written, by its place. -/
def store (bytes : List UInt8) (k : ℕ) (b : UInt8) : Option (List UInt8) :=
  if k < bytes.length then some (bytes.set k b) else none

/-- The bytes up to a place. -/
def upTo (bytes : List UInt8) (stop : ℕ) : Option (List UInt8) :=
  if stop ≤ bytes.length then some (bytes.take stop) else none

/-- A run of bytes written over one that has to be as long. -/
def copyInto (bytes : List UInt8) (start stop : ℕ) (run : List UInt8) : Option (List UInt8) :=
  if start ≤ stop ∧ stop ≤ bytes.length ∧ run.length = stop - start then
    some (copyFrom bytes start run)
  else none

/-- A byte one less. -/
def minusOne (b : UInt8) : Option UInt8 := if b = 0 then none else some (b - 1)

/-- A sum of two 32-bit words. -/
def plus (a b : ℕ) : Option ℕ := if a + b < 2 ^ 32 then some (a + b) else none

def sumAdd : ℕ → List UInt8 → Option ℕ
  | total, hi :: lo :: rest => do
    let total ← plus total (hi.toNat * 256 + lo.toNat)
    sumAdd total rest
  | total, [last] => plus total (last.toNat * 256)
  | total, [] => some total

def ipv4Checksum (header : List UInt8) : Option ℕ := do
  let total ← (Ip.headerWords 0 header).foldlM sumAdd 0
  return Ip.Sum.fold total

/-- One hop less, in place. -/
def decrementHopLimit (packet : Packet) : Option (Bool × Packet) :=
  if version packet = some 4 then do
    let first ← index packet 0
    let header := (first &&& 0x0f).toNat * 4
    if header < 20 ∨ packet.length < header then return (false, packet)
    else
      let hops ← index packet 8
      if hops ≤ 1 then return (false, packet)
      else
        let packet ← store packet 8 (← minusOne hops)
        let checksum ← ipv4Checksum (← upTo packet header)
        let packet ← copyInto packet 10 12 (toBe 2 checksum)
        return (true, packet)
  else if version packet = some 6 then
    if packet.length < 40 then return (false, packet)
    else do
      let hops ← index packet 7
      if hops ≤ 1 then return (false, packet)
      else
        let packet ← store packet 7 (← minusOne hops)
        return (true, packet)
  else return (false, packet)

/-- The congestion mark set, in place. -/
def markCongestion (packet : Packet) : Option (Bool × Packet) :=
  if version packet = some 4 ∧ 20 ≤ packet.length then do
    let service ← index packet 1
    if service &&& 0b11 = 0 then return (false, packet)
    else if service &&& 0b11 = 0b11 then return (true, packet)
    else
      let first ← index packet 0
      let header := (first &&& 0x0f).toNat * 4
      if header < 20 ∨ packet.length < header then return (false, packet)
      else
        let packet ← store packet 1 (service ||| 0b11)
        let checksum ← ipv4Checksum (← upTo packet header)
        let packet ← copyInto packet 10 12 (toBe 2 checksum)
        return (true, packet)
  else if version packet = some 6 ∧ 40 ≤ packet.length then do
    let service ← index packet 1
    if service &&& 0b00110000 = 0 then return (false, packet)
    else
      let packet ← store packet 1 (service ||| 0b00110000)
      return (true, packet)
  else return (false, packet)

lemma index_eq {bytes : List UInt8} {k : ℕ} (h : k < bytes.length) :
    index bytes k = some (byte bytes k) := by
  rw [index, byte, List.getD_eq_getElem?_getD, List.getElem?_eq_getElem h, Option.getD_some]

lemma store_eq {bytes : List UInt8} {k : ℕ} (h : k < bytes.length) (b : UInt8) :
    store bytes k b = some (bytes.set k b) := if_pos h

lemma upTo_eq {bytes : List UInt8} {stop : ℕ} (h : stop ≤ bytes.length) :
    upTo bytes stop = some (bytes.take stop) := if_pos h

lemma minusOne_eq {b : UInt8} (h : ¬b ≤ 1) : minusOne b = some (b - 1) := by
  refine if_neg fun hzero => h ?_
  rw [hzero]
  decide

/-- Short of thirty-two bits, the sum of the words of a header is the sum as it is. -/
lemma foldlM_headerWords (bytes : List UInt8) (k total : ℕ)
    (h : total + 0x10000 * bytes.length < 2 ^ 32) :
    (Ip.headerWords k bytes).foldlM sumAdd total =
      some ((Ip.headerWords k bytes).foldl Ip.Sum.add total) := by
  induction bytes using words.induct generalizing k total with
  | case1 hi lo rest ih =>
    have hhi := hi.toNat_lt
    have hlo := lo.toNat_lt
    rw [List.length_cons, List.length_cons] at h
    rw [Ip.headerWords]
    split_ifs with hfield
    · exact ih _ _ (by omega)
    · have hplus : plus total (hi.toNat * 256 + lo.toNat) =
          some (total + (hi.toNat * 256 + lo.toNat)) := if_pos (by omega)
      rw [List.foldlM_cons, List.foldl_cons, sumAdd, hplus]
      exact ih _ _ (by omega)
  | case2 bytes hshort =>
    rw [Ip.headerWords]
    · rfl
    · exact hshort

/-- No header is long enough to overflow its sum. -/
lemma ipv4Checksum_eq {header : List UInt8} (h : header.length ≤ 60) :
    ipv4Checksum header = some (Ip.ipv4Checksum header) := by
  have hsum := foldlM_headerWords header 0 0 (by omega)
  simp only [ipv4Checksum, hsum]
  rfl

end Checked

/-- The checksum of an IPv4 header, put back in it. -/
def resum (packet : Packet) : Packet :=
  copyFrom packet 10 (toBe 2 (Ip.ipv4Checksum (packet.take (headerLen packet))))

/-- A header that is inside its packet, at the least as long as the checksum needs it. -/
def HasHeader (packet : Packet) : Prop := 20 ≤ headerLen packet ∧ headerLen packet ≤ packet.length

lemma headerLen_le (packet : Packet) : headerLen packet ≤ 60 := by
  have hle : (byte packet 0 &&& 0x0f).toNat ≤ 15 := by
    rw [UInt8.toNat_and]
    exact Nat.and_le_right
  unfold headerLen
  omega

lemma headerLen_set {k : ℕ} (hk : 0 < k) (packet : Packet) (b : UInt8) :
    headerLen (packet.set k b) = headerLen packet := by
  unfold headerLen byte
  rw [List.getD_eq_getElem?_getD, List.getElem?_set_ne hk.ne', ← List.getD_eq_getElem?_getD]

lemma version_eq_some {first : UInt8} {rest : List UInt8} {v : UInt8} :
    version (first :: rest) = some v ↔ first.toNat / 16 = v.toNat := by
  have hshift : (first >>> 4).toNat = first.toNat / 16 := by
    rw [UInt8.toNat_shiftRight]
    exact Nat.shiftRight_eq_div_pow first.toNat 4
  rw [version, List.head?_cons, Option.map_some, Option.some_inj, ← hshift, UInt8.toNat_inj]

lemma headerLen_cons (first : UInt8) (rest : List UInt8) :
    headerLen (first :: rest) = first.toNat % 16 * 4 := by
  have hlow : (first &&& 0x0f).toNat = first.toNat % 16 := by
    rw [UInt8.toNat_and]
    exact Nat.and_two_pow_sub_one_eq_mod first.toNat 4
  rw [← hlow]
  rfl

namespace Checked

/-- The checksum is put back without a panic. -/
lemma resum_eq {packet : Packet} (h : HasHeader packet) :
    (do
      let checksum ← ipv4Checksum (← upTo packet (headerLen packet))
      let packet ← copyInto packet 10 12 (toBe 2 checksum)
      return (true, packet)) = some (true, resum packet) := by
  obtain ⟨hlong, hinside⟩ := h
  have hheader := headerLen_le packet
  have htake : (packet.take (headerLen packet)).length ≤ 60 := by
    rw [List.length_take]
    omega
  have hcopy : ∀ sum, copyInto packet 10 12 (toBe 2 sum) =
      some (copyFrom packet 10 (toBe 2 sum)) :=
    fun sum => if_pos ⟨by omega, by omega, length_toBe 2 sum⟩
  simp only [upTo_eq hinside, Option.bind_eq_bind, Option.bind_some, ipv4Checksum_eq htake, hcopy]
  rfl

end Checked

/-- What taking a hop off a packet comes to. -/
inductive Hop (packet : Packet) : Bool × Packet → Prop
  | refused : Hop packet (false, packet)
  | v4 : version packet = some 4 → HasHeader packet → ¬byte packet 8 ≤ 1 →
      Hop packet (true, resum (packet.set 8 (byte packet 8 - 1)))
  | v6 : version packet = some 6 → 40 ≤ packet.length → ¬byte packet 7 ≤ 1 →
      Hop packet (true, packet.set 7 (byte packet 7 - 1))

/-- What marking a packet comes to. -/
inductive Marked (packet : Packet) : Bool × Packet → Prop
  | refused : Marked packet (false, packet)
  | already : version packet = some 4 → 20 ≤ packet.length → byte packet 1 &&& 0b11 = 0b11 →
      Marked packet (true, packet)
  | v4 : version packet = some 4 → HasHeader packet →
      Marked packet (true, resum (packet.set 1 (byte packet 1 ||| 0b11)))
  | v6 : version packet = some 6 → 40 ≤ packet.length →
      Marked packet (true, packet.set 1 (byte packet 1 ||| 0b00110000))

lemma HasHeader.set {packet : Packet} (h : HasHeader packet) {k : ℕ} (hk : 0 < k) (b : UInt8) :
    HasHeader (packet.set k b) := by
  unfold HasHeader
  rw [headerLen_set hk, List.length_set]
  exact h

lemma length_pos_of_version {packet : Packet} {v : UInt8} (h : version packet = some v) :
    0 < packet.length := by
  cases packet with
  | nil => cases h
  | cons first rest => exact Nat.succ_pos _

/-- Taking a hop off, told by the version and the length of the header. -/
lemma decrementHopLimit_eq (packet : Packet) : decrementHopLimit packet =
    if version packet = some 4 then
      if headerLen packet < 20 ∨ packet.length < headerLen packet ∨ byte packet 8 ≤ 1 then
        (false, packet)
      else (true, resum (packet.set 8 (byte packet 8 - 1)))
    else if version packet = some 6 then
      if packet.length < 40 ∨ byte packet 7 ≤ 1 then (false, packet)
      else (true, packet.set 7 (byte packet 7 - 1))
    else (false, packet) := by
  cases packet with
  | nil => rfl
  | cons first rest =>
    have hset := headerLen_set (k := 8) (by omega) (first :: rest) (byte (first :: rest) 8 - 1)
    rw [headerLen_cons] at hset
    simp only [version_eq_some, headerLen_cons, resum, hset]
    rfl

lemma hop_decrementHopLimit (packet : Packet) : Hop packet (decrementHopLimit packet) := by
  rw [decrementHopLimit_eq]
  split_ifs with hv4 hbad hv6 hbad
  · exact .refused
  · rw [not_or, not_or] at hbad
    obtain ⟨hlong, hinside, hhops⟩ := hbad
    exact .v4 hv4 ⟨by omega, by omega⟩ hhops
  · exact .refused
  · rw [not_or] at hbad
    obtain ⟨hlong, hhops⟩ := hbad
    exact .v6 hv6 (by omega) hhops
  · exact .refused

/-- The outcome of a mark as the source has it, a packet and whether it was willing. -/
def marking (packet : Packet) : Bool × Packet :=
  (Queue.markCongestion packet).elim (false, packet) fun marked => (true, marked)

lemma marking_eq (packet : Packet) : marking packet =
    if version packet = some 4 ∧ 20 ≤ packet.length then
      if byte packet 1 &&& 0b11 = 0 then (false, packet)
      else if byte packet 1 &&& 0b11 = 0b11 then (true, packet)
      else if headerLen packet < 20 ∨ packet.length < headerLen packet then (false, packet)
      else (true, resum (packet.set 1 (byte packet 1 ||| 0b11)))
    else if version packet = some 6 ∧ 40 ≤ packet.length then
      if byte packet 1 &&& 0b00110000 = 0 then (false, packet)
      else (true, packet.set 1 (byte packet 1 ||| 0b00110000))
    else (false, packet) := by
  unfold marking Queue.markCongestion
  split_ifs with hv4 hzero hfull hbad hv6 hzero
  any_goals rfl
  set marked := packet.set 1 (byte packet 1 ||| 0b11) with hmarked
  have hlength : 10 + 2 ≤ marked.length := by
    rw [hmarked, List.length_set]
    omega
  have hset : headerLen marked = headerLen packet := headerLen_set (by omega) packet _
  have hlast : ∀ n : ℕ, UInt8.ofNat n = UInt8.ofNat (n % 256) := fun n => by
    rw [← UInt8.toNat_inj, UInt8.toNat_ofNat', UInt8.toNat_ofNat', Nat.mod_mod]
  simp only [Option.elim_some, resum, hset, toBe, set_set_eq hlength, Nat.pow_one, Nat.pow_zero,
    Nat.div_one]
  rw [← hlast]

lemma marked_marking (packet : Packet) : Marked packet (marking packet) := by
  rw [marking_eq]
  split_ifs with hv4 hzero hfull hbad hv6 hzero
  · exact .refused
  · exact .already hv4.1 hv4.2 hfull
  · exact .refused
  · exact .v4 hv4.1 ⟨by omega, by omega⟩
  · exact .refused
  · exact .v6 hv6.1 hv6.2
  · exact .refused

namespace Checked

/-- **Taking a hop off never panics.** -/
theorem decrementHopLimit_safe (packet : Packet) :
    decrementHopLimit packet = some (Transport.decrementHopLimit packet) := by
  rw [Headers.decrementHopLimit_eq]
  unfold decrementHopLimit
  by_cases hv4 : version packet = some 4
  · have hpos := length_pos_of_version hv4
    rw [if_pos hv4, if_pos hv4, index_eq hpos]
    change (if headerLen packet < 20 ∨ packet.length < headerLen packet then _ else _) = _
    by_cases hbad : headerLen packet < 20 ∨ packet.length < headerLen packet
    · rw [if_pos hbad, if_pos (by omega)]
      rfl
    · have hheader : HasHeader packet := by
        unfold HasHeader
        omega
      have hlong : 8 < packet.length := by
        obtain ⟨h20, hle⟩ := hheader
        omega
      rw [if_neg hbad, index_eq hlong]
      change (if byte packet 8 ≤ 1 then _ else _) = _
      by_cases hspent : byte packet 8 ≤ 1
      · rw [if_pos hspent, if_pos (.inr (.inr hspent))]
        rfl
      · have hset := resum_eq (hheader.set (k := 8) (by omega) (byte packet 8 - 1))
        rw [headerLen_set (by omega)] at hset
        have hgood : ¬(headerLen packet < 20 ∨ packet.length < headerLen packet ∨
            byte packet 8 ≤ 1) := by
          rintro (h | h | h)
          · exact hbad (.inl h)
          · exact hbad (.inr h)
          · exact hspent h
        rw [if_neg hspent, if_neg hgood, minusOne_eq hspent]
        simp only [Option.bind_eq_bind, Option.bind_some, store_eq hlong]
        exact hset
  · rw [if_neg hv4, if_neg hv4]
    by_cases hv6 : version packet = some 6
    · rw [if_pos hv6, if_pos hv6]
      by_cases hshort : packet.length < 40
      · rw [if_pos hshort, if_pos (.inl hshort)]
        rfl
      · have hlong : 7 < packet.length := by omega
        rw [if_neg hshort, index_eq hlong]
        change (if byte packet 7 ≤ 1 then _ else _) = _
        by_cases hspent : byte packet 7 ≤ 1
        · rw [if_pos hspent, if_pos (.inr hspent)]
          rfl
        · rw [if_neg hspent, if_neg (not_or.2 ⟨hshort, hspent⟩), minusOne_eq hspent]
          simp only [Option.bind_eq_bind, Option.bind_some, store_eq hlong]
          rfl
    · rw [if_neg hv6, if_neg hv6]
      rfl

/-- **Marking never panics.** -/
theorem markCongestion_safe (packet : Packet) : markCongestion packet = some (marking packet) := by
  rw [marking_eq]
  unfold markCongestion
  by_cases hv4 : version packet = some 4 ∧ 20 ≤ packet.length
  · have h0 : 0 < packet.length := by omega
    have h1 : 1 < packet.length := by omega
    rw [if_pos hv4, if_pos hv4, index_eq h1]
    change (if byte packet 1 &&& 0b11 = 0 then _ else _) = _
    split_ifs with hzero hfull hbad
    · rfl
    · rfl
    · rw [index_eq h0]
      exact if_pos hbad
    · have hheader : HasHeader packet := by
        unfold HasHeader
        omega
      have hset := resum_eq (hheader.set (k := 1) (by omega) (byte packet 1 ||| 0b11))
      rw [headerLen_set (by omega)] at hset
      rw [index_eq h0]
      refine (if_neg hbad).trans ?_
      simp only [Option.bind_eq_bind, Option.bind_some, store_eq h1]
      exact hset
  · rw [if_neg hv4, if_neg hv4]
    by_cases hv6 : version packet = some 6 ∧ 40 ≤ packet.length
    · have h1 : 1 < packet.length := by omega
      rw [if_pos hv6, if_pos hv6, index_eq h1]
      change (if byte packet 1 &&& 0b00110000 = 0 then _ else _) = _
      split_ifs with hzero
      · rfl
      · simp only [Option.bind_eq_bind, store_eq h1, Option.bind_some]
        rfl
    · rw [if_neg hv6, if_neg hv6]
      rfl

end Checked

/-! ### What a rewrite leaves -/

/-- Where the hops of a packet are counted. -/
def hopByte (packet : Packet) : Option ℕ :=
  if version packet = some 4 then some 8 else if version packet = some 6 then some 7 else none

/-- Which bits of the second byte of a packet tell of congestion. -/
def ecnBits (packet : Packet) : Option UInt8 :=
  if version packet = some 4 then some 0b11
  else if version packet = some 6 then some 0b00110000
  else none

/-- The packets are the same but for the byte `k` and the checksum of IPv4. -/
structure OnlyAt (packet packet' : Packet) (k : ℕ) : Prop where
  length : packet'.length = packet.length
  others : ∀ j, j ≠ k → ¬(version packet = some 4 ∧ (j = 10 ∨ j = 11)) → packet'[j]? = packet[j]?

/-- A header of IPv4 is inside its packet, and all its words add up to all ones. -/
def Balanced (packet : Packet) : Prop := HasHeader packet ∧ headerSum packet = 0xffff

lemma take_split {front back : List UInt8} (h : front.length = 10) {n : ℕ} (hn : 12 ≤ n)
    (hi lo : UInt8) : (front ++ hi :: lo :: back).take n = front ++ hi :: lo :: back.take (n - 12) := by
  obtain ⟨k, rfl⟩ := Nat.exists_eq_add_of_le hn
  rw [List.take_append, h, List.take_of_length_le (by omega), show 12 + k - 10 = k + 2 by omega,
    List.take_succ_cons, List.take_succ_cons, Nat.add_sub_cancel_left]

/-- A checksum put back, byte by byte. -/
lemma resum_split {packet : Packet} (h : HasHeader packet) :
    ∃ front hi lo back, packet = front ++ hi :: lo :: back ∧ front.length = 10 ∧
      ∃ hi' lo', resum packet = front ++ hi' :: lo' :: back ∧
        [hi', lo'] = toBe 2 (Ip.ipv4Checksum (packet.take (headerLen packet))) := by
  obtain ⟨h20, hinside⟩ := h
  have hlong : 10 + 2 ≤ packet.length := by omega
  obtain ⟨front, hi, lo, back, hsplit, hfront⟩ := exists_split hlong
  refine ⟨front, hi, lo, back, hsplit, hfront, _, _, ?_, rfl⟩
  unfold resum
  generalize Ip.ipv4Checksum (packet.take (headerLen packet)) = sum
  rw [hsplit]
  exact (copyFrom_split hfront hi lo _ _).trans (List.append_assoc _ _ _)

lemma resum_getElem? {packet : Packet} (h : HasHeader packet) {j : ℕ} (hj : j ≠ 10 ∧ j ≠ 11) :
    (resum packet)[j]? = packet[j]? := by
  obtain ⟨front, hi, lo, back, hsplit, hfront, hi', lo', hresum, -⟩ := resum_split h
  rw [hresum, hsplit]
  rcases Nat.lt_or_ge j 10 with hlt | hge
  · rw [List.getElem?_append_left (by omega), List.getElem?_append_left (by omega)]
  · obtain ⟨k, rfl⟩ := Nat.exists_eq_add_of_le (show 12 ≤ j by omega)
    rw [List.getElem?_append_right (by omega), List.getElem?_append_right (by omega), hfront,
      show 12 + k - 10 = k + 2 by omega]
    rfl

lemma length_resum {packet : Packet} (h : HasHeader packet) :
    (resum packet).length = packet.length := by
  obtain ⟨front, hi, lo, back, hsplit, -, hi', lo', hresum, -⟩ := resum_split h
  rw [hresum, hsplit]
  simp

lemma byte_congr {packet packet' : Packet} {k : ℕ} (h : packet'[k]? = packet[k]?) :
    byte packet' k = byte packet k := by
  rw [byte, byte, List.getD_eq_getElem?_getD, h, ← List.getD_eq_getElem?_getD]

lemma headerLen_congr {packet packet' : Packet} (h : packet'[0]? = packet[0]?) :
    headerLen packet' = headerLen packet := by
  unfold headerLen
  rw [byte_congr h]

/-- **A header whose checksum was put back is balanced.** -/
theorem balanced_resum {packet : Packet} (h : HasHeader packet) : Balanced (resum packet) := by
  have hlen : headerLen (resum packet) = headerLen packet :=
    headerLen_congr (resum_getElem? h ⟨by omega, by omega⟩)
  have hinside : HasHeader (resum packet) := by
    unfold HasHeader
    rw [hlen, length_resum h]
    exact h
  refine ⟨hinside, ?_⟩
  obtain ⟨front, hi, lo, back, hsplit, hfront, hi', lo', hresum, hfield⟩ := resum_split h
  have h12 : 12 ≤ headerLen packet := by
    obtain ⟨h20, -⟩ := h
    omega
  unfold headerSum
  rw [hlen, hresum, take_split hfront h12]
  rw [hsplit, take_split hfront (hsplit ▸ h12), ← hsplit] at hfield
  have hall := sum_of_checksum hfront hi lo (back.take (headerLen packet - 12))
  rw [← hfield, List.append_assoc] at hall
  exact hall

lemma onlyAt_set (packet : Packet) (k : ℕ) (b : UInt8) : OnlyAt packet (packet.set k b) k :=
  ⟨List.length_set, fun _ hj _ => List.getElem?_set_ne hj.symm⟩

/-- A byte written, and the checksum put back. -/
lemma onlyAt_resum {packet : Packet} (hv4 : version packet = some 4) {k : ℕ} (hk : 0 < k)
    (h : HasHeader packet) (b : UInt8) : OnlyAt packet (resum (packet.set k b)) k := by
  refine ⟨(length_resum (h.set hk b)).trans List.length_set, fun j hj hother => ?_⟩
  have hfield : j ≠ 10 ∧ j ≠ 11 := by
    constructor
    · rintro rfl
      exact hother ⟨hv4, .inl rfl⟩
    · rintro rfl
      exact hother ⟨hv4, .inr rfl⟩
  rw [resum_getElem? (h.set hk b) hfield, List.getElem?_set_ne hj.symm]

lemma byte_set {packet : Packet} {k : ℕ} (hk : k < packet.length) (b : UInt8) :
    byte (packet.set k b) k = b := by
  rw [byte, List.getD_eq_getElem?_getD, List.getElem?_set_self hk, Option.getD_some]

lemma byte_resum_set {packet : Packet} (h : HasHeader packet) {k : ℕ} (hk : 0 < k) (hk' : k < 10)
    (b : UInt8) : byte (resum (packet.set k b)) k = b := by
  obtain ⟨h20, hinside⟩ := h
  rw [byte_congr (resum_getElem? (HasHeader.set ⟨h20, hinside⟩ hk b) ⟨by omega, by omega⟩),
    byte_set (by omega)]

lemma or_and_self (b m : UInt8) : (b ||| m) &&& m = m := by
  refine UInt8.toBitVec_inj.1 ?_
  ext i hi
  rw [UInt8.toBitVec_and, UInt8.toBitVec_or, BitVec.getElem_and, BitVec.getElem_or]
  cases b.toBitVec[i] <;> simp

lemma or_and_not (b m : UInt8) : (b ||| m) &&& ~~~m = b &&& ~~~m := by
  refine UInt8.toBitVec_inj.1 ?_
  ext i hi
  simp only [UInt8.toBitVec_and, UInt8.toBitVec_or, UInt8.toBitVec_not, BitVec.getElem_and,
    BitVec.getElem_or, BitVec.getElem_not]
  cases m.toBitVec[i] <;> simp

/-- What taking a hop off leaves. -/
lemma hop_kept {packet : Packet} {out : Bool × Packet} (h : Hop packet out) :
    (out.1 = false → out.2 = packet) ∧
    (out.1 = true → ∃ k, hopByte packet = some k ∧ k < packet.length ∧
      2 ≤ (byte packet k).toNat ∧ (byte out.2 k).toNat + 1 = (byte packet k).toNat ∧
      OnlyAt packet out.2 k) ∧
    (version packet = some 4 → out.2 ≠ packet → Balanced out.2) := by
  have hless : ∀ {b : UInt8}, ¬b ≤ 1 → 2 ≤ b.toNat ∧ (b - 1).toNat + 1 = b.toNat := by
    intro b hb
    rw [UInt8.le_iff_toNat_le] at hb
    have hone : (1 : UInt8).toNat = 1 := rfl
    have hsub : (b - 1).toNat = b.toNat - 1 :=
      UInt8.toNat_sub_of_le b 1 (by rw [UInt8.le_iff_toNat_le]; omega)
    omega
  cases h with
  | refused => exact ⟨fun _ => rfl, fun h => Bool.noConfusion h, fun _ hne => absurd rfl hne⟩
  | v4 hv4 hheader hhops =>
    obtain ⟨htwo, hone⟩ := hless hhops
    refine ⟨fun h => Bool.noConfusion h, fun _ => ⟨8, if_pos hv4, ?_, htwo, ?_,
      onlyAt_resum hv4 (by omega) hheader _⟩, fun _ _ => balanced_resum (hheader.set (by omega) _)⟩
    · obtain ⟨h20, hinside⟩ := hheader
      omega
    · rw [byte_resum_set hheader (by omega) (by omega)]
      exact hone
  | v6 hv6 hlong hhops =>
    obtain ⟨htwo, hone⟩ := hless hhops
    have hv4 : version packet ≠ some 4 := by
      rw [hv6]
      decide
    refine ⟨fun h => Bool.noConfusion h, fun _ => ⟨7, ?_, by omega, htwo, ?_, onlyAt_set _ _ _⟩,
      fun h => absurd h hv4⟩
    · rw [hopByte, if_neg hv4, if_pos hv6]
    · rw [byte_set (by omega)]
      exact hone

/-- What a mark leaves. -/
lemma marked_kept {packet : Packet} {out : Bool × Packet} (h : Marked packet out) :
    (out.1 = false → out.2 = packet) ∧
    (out.1 = true → ∃ ecn, ecnBits packet = some ecn ∧ byte out.2 1 &&& ecn = ecn ∧
      byte out.2 1 &&& ~~~ecn = byte packet 1 &&& ~~~ecn ∧ OnlyAt packet out.2 1) ∧
    (version packet = some 4 → out.2 ≠ packet → Balanced out.2) := by
  cases h with
  | refused => exact ⟨fun _ => rfl, fun h => Bool.noConfusion h, fun _ hne => absurd rfl hne⟩
  | already hv4 hlong hfull =>
    exact ⟨fun _ => rfl, fun _ => ⟨0b11, if_pos hv4, hfull, rfl, rfl, fun _ _ _ => rfl⟩,
      fun _ hne => absurd rfl hne⟩
  | v4 hv4 hheader =>
    refine ⟨fun h => Bool.noConfusion h, fun _ => ⟨0b11, if_pos hv4, ?_, ?_,
      onlyAt_resum hv4 (by omega) hheader _⟩, fun _ _ => balanced_resum (hheader.set (by omega) _)⟩
    · rw [byte_resum_set hheader (by omega) (by omega), or_and_self]
    · rw [byte_resum_set hheader (by omega) (by omega), or_and_not]
  | v6 hv6 hlong =>
    have hv4 : version packet ≠ some 4 := by
      rw [hv6]
      decide
    refine ⟨fun h => Bool.noConfusion h, fun _ => ⟨0b00110000, ?_, ?_, ?_, onlyAt_set _ _ _⟩,
      fun h => absurd h hv4⟩
    · rw [ecnBits, if_neg hv4, if_pos hv6]
    · rw [byte_set (by omega), or_and_self]
    · rw [byte_set (by omega), or_and_not]

/-- **Rewriting a header breaks nothing else in it.** Neither function reads or writes outside its
packet. One that returns `false` has changed nothing. One that returns `true` has written its field,
the hop byte one less where it was at least two or both congestion bits set, and apart from it only
the checksum of IPv4; and a packet of IPv4 that was changed adds up to all ones, whatever checksum
it carried. -/
theorem rewriting_keeps_header (packet : Packet) :
    ∃ hop mark, Checked.decrementHopLimit packet = some hop ∧
      Checked.markCongestion packet = some mark ∧
      (hop.1 = false → hop.2 = packet) ∧
      (hop.1 = true → ∃ k, hopByte packet = some k ∧ k < packet.length ∧
        2 ≤ (byte packet k).toNat ∧ (byte hop.2 k).toNat + 1 = (byte packet k).toNat ∧
        OnlyAt packet hop.2 k) ∧
      (mark.1 = false → mark.2 = packet) ∧
      (mark.1 = true → ∃ ecn, ecnBits packet = some ecn ∧ byte mark.2 1 &&& ecn = ecn ∧
        byte mark.2 1 &&& ~~~ecn = byte packet 1 &&& ~~~ecn ∧ OnlyAt packet mark.2 1) ∧
      (version packet = some 4 → (hop.2 ≠ packet → Balanced hop.2) ∧
        (mark.2 ≠ packet → Balanced mark.2)) := by
  obtain ⟨hopFalse, hopTrue, hopSum⟩ := hop_kept (hop_decrementHopLimit packet)
  obtain ⟨markFalse, markTrue, markSum⟩ := marked_kept (marked_marking packet)
  exact ⟨_, _, Checked.decrementHopLimit_safe packet, Checked.markCongestion_safe packet, hopFalse,
    hopTrue, markFalse, markTrue, fun hv4 => ⟨hopSum hv4, markSum hv4⟩⟩

end Masqr.Headers

import Masqr.Lib.Positions
import Masqr.Queue.Order
import Masqr.Queue.Starvation

/-!
Thinning acknowledgements loses nothing a sender needs.

What is redundant is said over the headers alone: an acknowledgement of the connection of the one
that arrives, behind it in the order of numbers that wrap. The thinning takes all of those but the
last out of the bucket, from the back.
-/

namespace Masqr.Queue

open Masqr.Lib

/-- The number is strictly behind another, as numbers wrap. -/
def Behind (older acked : UInt32) : Prop :=
  ∃ k, 0 < k ∧ k < 2 ^ 31 ∧ acked = older + UInt32.ofNat k

lemma toInt32_pos (d : UInt32) : 0 < d.toInt32 ↔ 0 < d.toNat ∧ d.toNat < 2 ^ 31 := by
  have hlt := d.toNat_lt
  have hint : d.toInt32.toInt = (d.toNat : ℤ).bmod (2 ^ 32) := by
    have hof : d.toInt32 = Int32.ofNat d.toNat := by
      rw [← UInt32.toInt32_ofNat', UInt32.ofNat_toNat]
    rw [hof, Int32.toInt_ofNat']
    rfl
  rw [Int32.lt_iff_toInt_lt, Int32.toInt_zero, hint, Int.bmod_def]
  split_ifs <;> omega

/-- **The signed difference tells which is behind.** -/
theorem behind_iff (older acked : UInt32) : 0 < (acked - older).toInt32 ↔ Behind older acked := by
  rw [toInt32_pos]
  constructor
  · rintro ⟨hpos, hlt⟩
    refine ⟨(acked - older).toNat, hpos, hlt, ?_⟩
    rw [UInt32.ofNat_toNat, add_comm, sub_add_cancel]
  · rintro ⟨k, hpos, hlt, rfl⟩
    have hdiff : older + UInt32.ofNat k - older = UInt32.ofNat k := by
      rw [add_comm, add_sub_cancel_right]
    rw [hdiff, UInt32.toNat_ofNat']
    omega

lemma not_behind_self (number : UInt32) : ¬ Behind number number := by
  rw [← behind_iff, toInt32_pos, sub_self]
  simp

/-- The waiting packet is an acknowledgement of the connection of the packet that arrives, with a
number behind the one it acknowledges. -/
def Covered (newer : Packet) (acked : UInt32) (x : Queued) : Prop :=
  ∃ c start start' older, Connects newer start c ∧ Connects x.packet start' c ∧
    IsAck x.packet older ∧ Behind older acked

/-- What the thinning looks for. -/
def covers (newer : Packet) (acked : UInt32) (x : Queued) : Bool :=
  match pureAck x.packet with
  | none => false
  | some older => decide (0 < (acked - older).toInt32) && sameConnection newer x.packet

lemma covers_iff (newer : Packet) (acked : UInt32) (x : Queued) :
    covers newer acked x = true ↔ Covered newer acked x := by
  unfold covers
  constructor
  · intro h
    split at h
    · cases h
    · next older hack =>
      rw [Bool.and_eq_true, decide_eq_true_eq, behind_iff, sameConnection_iff] at h
      obtain ⟨hbehind, c, start, start', hnewer, holder⟩ := h
      exact ⟨c, start, start', older, hnewer, holder, (pureAck_iff _ _).1 hack, hbehind⟩
  · rintro ⟨c, start, start', older, hnewer, holder, hack, hbehind⟩
    rw [(pureAck_iff _ _).2 hack]
    simp only [Bool.and_eq_true, decide_eq_true_eq, behind_iff, sameConnection_iff]
    exact ⟨hbehind, c, start, start', hnewer, holder⟩

instance (newer : Packet) (acked : UInt32) (x : Queued) : Decidable (Covered newer acked x) :=
  decidable_of_iff _ (covers_iff newer acked x)

namespace Inner

lemma thinOne_flows (i : Bucket) (q : Inner) (k : ℕ) :
    (∀ j, j ≠ i → (thinOne i q k).flows j = q.flows j) ∧
      ((thinOne i q k).flows i).packets = (q.flows i).packets.eraseIdx k := by
  unfold thinOne
  split
  · next hnone =>
    unfold remove at hnone
    split at hnone
    · next hout => exact ⟨fun _ _ => rfl, (List.eraseIdx_of_length_le
        (List.getElem?_eq_none_iff.1 hout)).symm⟩
    · cases hnone
  · next x q1 hremove =>
    obtain ⟨-, rfl⟩ := remove_cases hremove
    refine ⟨fun j hj => ?_, ?_⟩
    · simp [hj]
    · simp

lemma thinAll_flows (i : Bucket) (q : Inner) (places : List ℕ) :
    (∀ j, j ≠ i → (places.foldl (thinOne i) q).flows j = q.flows j) ∧
      ((places.foldl (thinOne i) q).flows i).packets =
        places.foldl List.eraseIdx (q.flows i).packets := by
  induction places generalizing q with
  | nil => exact ⟨fun _ _ => rfl, rfl⟩
  | cons k places ih =>
    obtain ⟨hothers, hpackets⟩ := thinOne_flows i q k
    obtain ⟨hothers', hpackets'⟩ := ih (thinOne i q k)
    refine ⟨fun j hj => (hothers' j hj).trans (hothers j hj), ?_⟩
    rw [List.foldl_cons, List.foldl_cons, hpackets', hpackets]

/-- What thinning does to the buckets. -/
lemma thinAcks_flows (q : Inner) (i : Bucket) (newer : Packet) (acked : UInt32) :
    (∀ j, j ≠ i → (q.thinAcks i newer acked).flows j = q.flows j) ∧
      ((q.thinAcks i newer acked).flows i).packets = eraseAll (q.flows i).packets
        (positions (covers newer acked) (q.flows i).packets).dropLast :=
  thinAll_flows i q (q.redundant i newer acked).dropLast.reverse

/-- Thinning leaves a bucket with nothing redundant alone, and takes all that is redundant but the
last out of any other. -/
lemma thinAcks_packets (q : Inner) (i : Bucket) (newer : Packet) (acked : UInt32) :
    ((∀ x ∈ (q.flows i).packets, ¬ Covered newer acked x) ∧
        ((q.thinAcks i newer acked).flows i).packets = (q.flows i).packets) ∨
      ∃ before last after, (q.flows i).packets = before ++ last :: after ∧
        Covered newer acked last ∧ (∀ x ∈ after, ¬ Covered newer acked x) ∧
        ((q.thinAcks i newer acked).flows i).packets =
          before.filter (fun x => ¬ Covered newer acked x) ++ last :: after := by
  have hcovered : ∀ x, covers newer acked x = decide (Covered newer acked x) := fun x => by
    rw [Bool.eq_iff_iff, decide_eq_true_eq]
    exact covers_iff newer acked x
  rw [(thinAcks_flows q i newer acked).2]
  by_cases hany : ∃ x ∈ (q.flows i).packets, covers newer acked x = true
  · right
    obtain ⟨before, last, after, hsplit, hlast, hafter⟩ := exists_last _ hany
    refine ⟨before, last, after, hsplit, (covers_iff _ _ _).1 hlast, fun x hx => ?_, ?_⟩
    · rw [← covers_iff, hafter x hx]
      exact Bool.false_ne_true
    · rw [hsplit, eraseAll_dropLast _ hlast hafter]
      congr 1
      refine List.filter_congr fun x _ => ?_
      rw [hcovered, decide_not]
  · left
    have hnone : ∀ x ∈ (q.flows i).packets, covers newer acked x = false := fun x hx =>
      Bool.eq_false_iff.2 fun hc => hany ⟨x, hx, hc⟩
    refine ⟨fun x hx => ?_, ?_⟩
    · rw [← covers_iff, hnone x hx]
      exact Bool.false_ne_true
    · rw [positions_none _ hnone]
      rfl

end Inner

/-- An acknowledgement of the number that arrives is not behind it. -/
lemma not_covered_same {newer : Packet} {acked : UInt32} {x : Queued}
    (h : IsAck x.packet acked) : ¬ Covered newer acked x := by
  rintro ⟨c, start, start', older, -, -, holder, hbehind⟩
  have hsame : some acked = some older :=
    ((pureAck_iff x.packet acked).2 h).symm.trans ((pureAck_iff x.packet older).2 holder)
  cases hsame
  exact not_behind_self acked hbehind

/-- **Thinning acknowledgements loses nothing a sender needs.** Once there is room, a packet that is
no pure acknowledgement removes nothing. One that is removes nothing from other buckets, and from
its own all that is redundant but the last: what is before the last stays if it is not redundant,
the last and what is after it stays, all in order, and the new one comes at the end. So behind each
that goes there are the last and the new one. An acknowledgement of the same number stays. -/
theorem thinning_spares (q : Inner) (packet : Packet) (now : Instant) :
    let i := flowOf packet
    let q1 := (Inner.makeRoom packet.length).run q
    let q2 := q1.thinFor i packet
    let q' := q.enqueue packet now
    q' = (q2.push i packet now).join i ∧
    (q'.flows i).packets = (q2.flows i).packets ++ [⟨packet, now, q.arrived.length⟩] ∧
    (∀ j, j ≠ i → q2.flows j = q1.flows j) ∧
    ((∀ acked, ¬ IsAck packet acked) → q2 = q1) ∧
    ∀ acked, IsAck packet acked →
      (((∀ x ∈ (q1.flows i).packets, ¬ Covered packet acked x) ∧
          (q2.flows i).packets = (q1.flows i).packets) ∨
        ∃ before last after, (q1.flows i).packets = before ++ last :: after ∧
          Covered packet acked last ∧ (∀ x ∈ after, ¬ Covered packet acked x) ∧
          (q2.flows i).packets =
            before.filter (fun x => ¬ Covered packet acked x) ++ last :: after) ∧
      ∀ x ∈ (q1.flows i).packets, IsAck x.packet acked → x ∈ (q2.flows i).packets := by
  intro i q1 q2 q'
  have harrived : q2.arrived = q.arrived :=
    ((Inner.makeRoom_drained packet.length q).trans (Inner.thinFor_drained q1 i packet)).arrived
  refine ⟨rfl, ?_, ?_, fun hnone => ?_, fun acked hack => ?_⟩
  · calc (q'.flows i).packets
        = ((q2.push i packet now).flows i).packets := Inner.join_packets _ i i
      _ = (q2.flows i).packets ++ [⟨packet, now, q2.arrived.length⟩] := by
        rw [Inner.push_flows, Function.update_self]
      _ = (q2.flows i).packets ++ [⟨packet, now, q.arrived.length⟩] := by rw [harrived]
  · intro j hj
    change (q1.thinFor i packet).flows j = q1.flows j
    unfold Inner.thinFor
    split
    · exact (Inner.thinAcks_flows q1 i packet _).1 j hj
    · rfl
  · change q1.thinFor i packet = q1
    unfold Inner.thinFor
    split
    · next acked hacked => exact absurd ((pureAck_iff packet acked).1 hacked) (hnone acked)
    · rfl
  · have hthin : q2 = q1.thinAcks i packet acked := by
      change q1.thinFor i packet = _
      unfold Inner.thinFor
      rw [(pureAck_iff packet acked).2 hack]
    rw [hthin]
    have hpackets := Inner.thinAcks_packets q1 i packet acked
    refine ⟨hpackets, fun x hx hsame => ?_⟩
    rcases hpackets with ⟨-, hkept⟩ | ⟨before, last, after, hsplit, -, -, hkept⟩
    · rwa [hkept]
    · rw [hsplit, List.mem_append] at hx
      rw [hkept, List.mem_append]
      refine hx.imp_left fun hbefore => List.mem_filter.2 ⟨hbefore, ?_⟩
      exact decide_eq_true (not_covered_same hsame)

end Masqr.Queue

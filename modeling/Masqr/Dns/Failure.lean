import Mathlib
import Masqr.Dns.NameLimits
import Masqr.Dns.Server

/-!
The reply to a query that could not be served, and whether it is a whole message.
-/

namespace Masqr.Dns

open Masqr.Lib

variable {message query reply : Message} {start : ℕ}

/-- A name is read from `start`, and as it was written it ends before `after`. -/
def Reads (message : Message) (start after : ℕ) : Prop :=
  ∃ name, readName message start = .ok (name, after)

/-- The count of a section, by its place in the header. -/
def count (message : Message) (i : ℕ) : ℕ := fromBeBytes ((message.drop i).take 2)

/-- The places of a query that the reply has as they were: its id, its count of questions, and what
is behind its header. -/
def Kept (i : ℕ) : Prop := i < 2 ∨ i = 4 ∨ i = 5 ∨ HEADER_LEN ≤ i

/-- A byte of a query at its place in the reply. -/
def edited (i : ℕ) (b : UInt8) : UInt8 :=
  if i = 2 then b ||| 0x80 else if i = 3 then 0x82 else if 6 ≤ i ∧ i < HEADER_LEN then 0 else b

/-- What the reply leaves of a name of the query, told from the query's bytes. A name that a pointer
leads into the header may stand on the bytes that are kept, and ends where the counts were. -/
inductive LeftAt (query : Message) : ℕ → List (List UInt8) → ℕ → ℕ → ℕ → Prop
  | root {start : ℕ} (hkept : Kept start) (h : Stands query start [0]) :
      LeftAt query start [] 0 0 (start + 1)
  | cleared {start : ℕ} (hfrom : 6 ≤ start) (hto : start < HEADER_LEN) :
      LeftAt query start [] 0 0 (start + 1)
  | label {start jumps size after : ℕ} {label : List UInt8} {labels : List (List UInt8)}
      (hkept : Kept start) (hpos : 0 < label.length) (hmax : label.length ≤ MAX_LABEL)
      (h : Stands query start (UInt8.ofNat label.length :: label))
      (rest : LeftAt query (start + 1 + label.length) labels jumps size after) :
      LeftAt query start (label.mapIdx (fun i b => edited (start + 1 + i) b) :: labels) jumps
        (label.length + 1 + size) after
  | pointer {start target jumps size after : ℕ} {labels : List (List UInt8)}
      (hhigh : Kept start) (hlow : Kept (start + 1)) (hback : target < start)
      (hmax : target < 0x4000) (h : Stands query start (toBe 2 (0xc000 + target)))
      (rest : LeftAt query target labels jumps size after) :
      LeftAt query start labels (jumps + 1) size (start + 2)
  -- the low byte of this pointer is one of the counts
  | zeroth {jumps size after : ℕ} {labels : List (List UInt8)} (h : Stands query 5 [0xc0])
      (rest : LeftAt query 0 labels jumps size after) : LeftAt query 5 labels (jumps + 1) size 7

/-- The messages differ in their headers at most. -/
structure SameBody (message reply : Message) : Prop where
  length : message.length = reply.length
  body : message.drop HEADER_LEN = reply.drop HEADER_LEN

lemma SameBody.slice (h : SameBody message reply) {n length : ℕ} (hn : HEADER_LEN ≤ n) :
    slice message n length = slice reply n length := by
  obtain ⟨k, rfl⟩ := Nat.exists_eq_add_of_le hn
  unfold Dns.slice
  rw [h.length, ← List.drop_drop, ← List.drop_drop, h.body]

/-- What the reply keeps of the query's header, and what it puts there. -/
lemma failureReply_header {query reply : Message} (h : failureReply query = some reply) :
    SameBody query reply ∧ reply.take 2 = query.take 2 ∧
      reply.getD 2 0 = query.getD 2 0 ||| 0x80 ∧ reply.getD 3 0 = 0x82 ∧
      (reply.drop 4).take 2 = (query.drop 4).take 2 ∧
      count reply 6 = 0 ∧ count reply 8 = 0 ∧ count reply 10 = 0 := by
  unfold failureReply at h
  split at h
  · cases h
  next hlength =>
  obtain rfl := Option.some.inj h
  have hlength : 12 ≤ query.length := Nat.not_lt.1 hlength
  obtain ⟨header, rest, rfl, hheader⟩ :
      ∃ header rest, query = header ++ rest ∧ header.length = 12 :=
    ⟨query.take 12, query.drop 12, (List.take_append_drop 12 query).symm, by
      rw [List.length_take]; omega⟩
  match header, hheader with
  | [a, b, c, d, e, f, g, h, i, j, k, l], _ =>
    exact ⟨⟨by simp, rfl⟩, rfl, rfl, rfl, rfl, rfl, rfl, rfl⟩

lemma Kept.edited {i : ℕ} (h : Kept i) (b : UInt8) : edited i b = b := by
  simp only [Kept, HEADER_LEN] at h
  rw [Dns.edited, if_neg (by omega), if_neg (by omega), if_neg (by simp only [HEADER_LEN]; omega)]

/-- The reply byte for byte. -/
lemma failureReply_getElem? (h : failureReply query = some reply) (i : ℕ) :
    reply[i]? = (query[i]?).map (edited i) := by
  obtain ⟨hsame, -⟩ := failureReply_header h
  rcases Nat.lt_or_ge i HEADER_LEN with hi | hi
  · unfold failureReply at h
    split at h
    · cases h
    next hlength =>
    obtain rfl := Option.some.inj h
    obtain ⟨header, rest, rfl, hheader⟩ :
        ∃ header rest, query = header ++ rest ∧ header.length = 12 :=
      ⟨query.take 12, query.drop 12, (List.take_append_drop 12 query).symm, by
        rw [List.length_take]; exact Nat.min_eq_left (Nat.not_lt.1 hlength)⟩
    match header, hheader with
    | [a, b, c, d, e, f, g, h, j, k, l, m], _ =>
      have hi : i < 12 := hi
      interval_cases i <;> rfl
  · obtain ⟨k, rfl⟩ := Nat.exists_eq_add_of_le hi
    have hkept : edited (HEADER_LEN + k) = id := funext fun b => Kept.edited (by simp [Kept]) b
    rw [hkept, Option.map_id, id, ← List.getElem?_drop, ← List.getElem?_drop, hsame.body]

lemma toNat_or_128 (b : UInt8) : 128 ≤ (b ||| 0x80).toNat := by
  have hall : ∀ n : Fin 256, 128 ≤ (UInt8.ofNat n.val ||| 0x80).toNat := by decide +kernel
  have h := hall ⟨b.toNat, b.toNat_lt⟩
  rwa [UInt8.ofNat_toNat] at h

/-- A byte that is not kept is a flag, which no length and no root is, or was a count. -/
lemma edited_of_not_kept {i : ℕ} (h : ¬Kept i) (b : UInt8) :
    (i = 2 ∧ 128 ≤ (edited i b).toNat) ∨ (i = 3 ∧ edited i b = 0x82) ∨
      (6 ≤ i ∧ i < HEADER_LEN ∧ edited i b = 0) := by
  simp only [Kept, HEADER_LEN] at h
  rcases (by omega : i = 2 ∨ i = 3 ∨ (6 ≤ i ∧ i < 12)) with rfl | rfl | ⟨hfrom, hto⟩
  · exact .inl ⟨rfl, toNat_or_128 b⟩
  · exact .inr (.inl ⟨rfl, rfl⟩)
  · refine .inr (.inr ⟨hfrom, hto, ?_⟩)
    rw [edited, if_neg (by omega), if_neg (by omega), if_pos ⟨hfrom, hto⟩]

/-- A byte of the reply that was not kept is a flag, or was a count. -/
lemma failureReply_lost (h : failureReply query = some reply) (hkept : ¬Kept start) {n : ℕ}
    (hb : byteAt reply start = some n) : (start = 2 ∧ 128 ≤ n) ∨ (start = 3 ∧ n = 0x82) ∨
      (6 ≤ start ∧ start < HEADER_LEN ∧ n = 0) := by
  rw [byteAt, failureReply_getElem? h, Option.map_map] at hb
  obtain ⟨b, -, rfl⟩ := Option.map_eq_some_iff.1 hb
  rcases edited_of_not_kept hkept b with ⟨hstart, hbyte⟩ | ⟨hstart, hbyte⟩ | ⟨hfrom, hto, hbyte⟩
  · exact .inl ⟨hstart, hbyte⟩
  · exact .inr (.inl ⟨hstart, congrArg UInt8.toNat hbyte⟩)
  · exact .inr (.inr ⟨hfrom, hto, congrArg UInt8.toNat hbyte⟩)

/-- The two bytes of a pointer. -/
lemma byteAt_pointer_both {target : ℕ} (hmax : target < 0x4000)
    (h : Stands message start (toBe 2 (0xc000 + target))) :
    byteAt message start = some (192 + target / 256) ∧
      byteAt message (start + 1) = some (target % 256) := by
  have hlow := (@Stands.right _ _ [UInt8.ofNat ((0xc000 + target) / 256 ^ 1)] _ h).head
  constructor
  · rw [byteAt, show message[start]? = _ from h.head, Option.map_some, UInt8.toNat_ofNat']
    exact congrArg some (by simp only [Nat.pow_one]; omega)
  · rw [byteAt, show message[start + 1]? = _ from hlow, Option.map_some, UInt8.toNat_ofNat']
    exact congrArg some (by simp only [Nat.pow_zero]; omega)

lemma stands_getElem? {bytes : List UInt8} :
    Stands message start bytes ↔ start + bytes.length ≤ message.length ∧
      ∀ i < bytes.length, message[start + i]? = bytes[i]? := by
  constructor
  · intro h
    refine ⟨h.bound, fun i hi => ?_⟩
    rw [← List.getElem?_drop, ← List.getElem?_take_of_lt hi, h.take]
  · rintro ⟨hbound, hbytes⟩
    refine stands_iff.2 ?_
    rw [Dns.slice, if_pos hbound]
    refine congrArg some (List.ext_getElem? fun i => ?_)
    rcases Nat.lt_or_ge i bytes.length with hi | hi
    · rw [List.getElem?_take_of_lt hi, List.getElem?_drop, hbytes i hi]
    · rw [List.getElem?_eq_none hi, List.getElem?_eq_none]
      rw [List.length_take]
      omega

/-- What stands in the query stands in the reply as it was edited. -/
lemma Stands.edit (h : failureReply query = some reply) {bytes : List UInt8}
    (hs : Stands query start bytes) :
    Stands reply start (bytes.mapIdx fun i b => edited (start + i) b) := by
  obtain ⟨hbound, hbytes⟩ := stands_getElem?.1 hs
  refine stands_getElem?.2 ⟨?_, fun i hi => ?_⟩
  · rw [List.length_mapIdx, ← (failureReply_header h).1.length]
    exact hbound
  · rw [List.length_mapIdx] at hi
    rw [failureReply_getElem? h, hbytes i hi, List.getElem?_mapIdx]

/-- What stands in the reply is what stood in the query, as it was edited. -/
lemma Stands.unedit (h : failureReply query = some reply) {bytes : List UInt8}
    (hs : Stands reply start bytes) : ∃ bytes', Stands query start bytes' ∧
      bytes = bytes'.mapIdx fun i b => edited (start + i) b := by
  have hbound : start + bytes.length ≤ query.length := (failureReply_header h).1.length ▸ hs.bound
  obtain ⟨bytes', hslice⟩ : ∃ bytes', Dns.slice query start bytes.length = some bytes' :=
    ⟨_, if_pos hbound⟩
  obtain ⟨hlength, hs'⟩ := slice_eq_some hslice
  exact ⟨bytes', hs', hs.same (hs'.edit h) (by rw [List.length_mapIdx, hlength])⟩

/-- What stands on kept places is the same in both. -/
lemma stands_kept (h : failureReply query = some reply) {bytes : List UInt8}
    (hkept : ∀ i < bytes.length, Kept (start + i)) :
    Stands reply start bytes ↔ Stands query start bytes := by
  rw [stands_getElem?, stands_getElem?, (failureReply_header h).1.length]
  refine and_congr_right fun hbound => forall₂_congr fun i hi => ?_
  have hedited : edited (start + i) = id := funext (hkept i hi).edited
  rw [failureReply_getElem? h, hedited, Option.map_id, id]

/-- The bytes behind the first are at the places behind its own. -/
lemma edited_next (start : ℕ) :
    (fun i b => edited (start + (i + 1)) b) = fun i b => edited (start + 1 + i) b :=
  funext fun i => by rw [Nat.add_assoc, Nat.add_comm 1 i]

/-- Only one pointer of the reply has a byte that was not kept. -/
lemma pointer_lost (h : failureReply query = some reply) {target : ℕ}
    (hkept : ¬(Kept start ∧ Kept (start + 1))) (hback : target < start) (hmax : target < 0x4000)
    (hs : Stands reply start (toBe 2 (0xc000 + target))) : start = 5 ∧ target = 0 := by
  obtain ⟨hhigh, hlow⟩ := byteAt_pointer_both hmax hs
  by_cases hfirst : Kept start
  · have hsecond : ¬Kept (start + 1) := fun hsecond => hkept ⟨hfirst, hsecond⟩
    simp only [Kept, HEADER_LEN] at hfirst
    rcases failureReply_lost h hsecond hlow with ⟨hstart, hbyte⟩ | ⟨hstart, -⟩ |
      ⟨hfrom, hto, hbyte⟩
    -- the flags are too great for where such a pointer may lead
    · omega
    · omega
    · simp only [HEADER_LEN] at hto
      omega
  · rcases failureReply_lost h hfirst hhigh with ⟨rfl, -⟩ | ⟨-, hbyte⟩ | ⟨-, -, hbyte⟩
    · rcases failureReply_lost h (by simp [Kept, HEADER_LEN]) hlow with ⟨hstart, -⟩ | ⟨-, hbyte⟩ |
        ⟨hfrom, -, -⟩
      all_goals omega
    · omega
    · omega

/-- A name that stands in the reply is what is left of one of the query. -/
lemma NameAt.left (h : failureReply query = some reply) {labels : List (List UInt8)}
    {jumps size after : ℕ} (hname : NameAt reply start labels jumps size after) :
    LeftAt query start labels jumps size after := by
  induction hname with
  | @root start hs =>
    by_cases hkept : Kept start
    · exact .root hkept ((stands_kept h (by simpa using hkept)).1 hs)
    · rcases failureReply_lost h hkept (byteAt_root hs) with ⟨-, hbyte⟩ | ⟨-, hbyte⟩ |
        ⟨hfrom, hto, -⟩
      · exact absurd hbyte (by decide)
      · exact absurd hbyte (by decide)
      · exact .cleared hfrom hto
  | @label start jumps size after label labels hpos hmax hs rest ih =>
    by_cases hkept : Kept start
    · obtain ⟨bytes, hs', hbytes⟩ := hs.unedit h
      cases bytes with
      | nil => cases hbytes
      | cons b label' =>
        rw [List.mapIdx_cons, Nat.add_zero, hkept.edited] at hbytes
        obtain ⟨rfl, rfl⟩ := List.cons.inj hbytes
        rw [edited_next] at hpos hmax ih hs' ⊢
        rw [List.length_mapIdx] at hpos hmax ih hs' ⊢
        exact .label hkept hpos hmax hs' ih
    · have hmax' : label.length ≤ 63 := hmax
      rcases failureReply_lost h hkept (byteAt_label hmax hs) with h' | h' | h'
      all_goals omega
  | @pointer start target jumps size after labels hback hmax hs rest ih =>
    by_cases hkept : Kept start ∧ Kept (start + 1)
    · refine .pointer hkept.1 hkept.2 hback hmax ((stands_kept h fun i hi => ?_).1 hs) ih
      rw [length_toBe] at hi
      interval_cases i
      · exact hkept.1
      · exact hkept.2
    · obtain ⟨rfl, rfl⟩ := pointer_lost h hkept hback hmax hs
      refine .zeroth ((stands_kept h (by simp [Kept])).1 ?_) ih
      exact @Stands.left _ _ [0xc0] [0] hs

end Masqr.Dns

import Mathlib
import Masqr.Tun.Routes

/-!
Addresses and prefixes read back as they are written.

A number is written in its digits and read up to the first character that is none; groups are
read up to the first separator that none follows, and the run of zeros left out of an address of
the newer family is put back by counting the groups on either side.
-/

namespace Masqr

namespace Parser

/-! ### Numbers -/

/-- The text goes on with no digit. -/
def Ends (radix : ℕ) (rest : List Char) : Prop := ∀ c, rest.head? = some c → toDigit radix c = none

lemma Ends.nil (radix : ℕ) : Ends radix [] := fun _ h => by cases h

lemma Ends.cons {radix : ℕ} {c : Char} (h : toDigit radix c = none) (rest : List Char) :
    Ends radix (c :: rest) := by
  rintro _ ⟨⟩
  exact h

lemma toDigit_digitChar {radix d : ℕ} (h : d < radix) (hradix : radix ≤ 16) :
    toDigit radix d.digitChar = some d := by
  have hd : d < 16 := by omega
  have hvalue : ∀ d < 16, ∀ radix ≤ 16, d < radix → toDigit radix d.digitChar = some d := by decide
  exact hvalue d hd radix hradix h

variable {radix : ℕ} (hone : 1 < radix) (hradix : radix ≤ 16)

include hone hradix

/-- The digits of a number are digits, and their value is the number. -/
lemma filterMap_toDigits (n : ℕ) :
    (∀ c ∈ Nat.toDigits radix n, (toDigit radix c).isSome = true) ∧
      ((Nat.toDigits radix n).filterMap (toDigit radix)).foldl (fun n d => n * radix + d) 0 =
        n := by
  induction n using Nat.strong_induction_on with
  | _ n ih =>
    rw [Nat.toDigits_eq_if hone]
    split
    · next hlt => simp [toDigit_digitChar hlt hradix]
    · next hle =>
      have hmod := toDigit_digitChar (Nat.mod_lt n (by omega : radix > 0)) hradix
      obtain ⟨hdigits, hvalue⟩ := ih (n / radix) (Nat.div_lt_self (by omega) hone)
      refine ⟨?_, ?_⟩
      · intro c hc
        obtain hc | hc := List.mem_append.1 hc
        · exact hdigits c hc
        · rw [List.mem_singleton.1 hc, hmod]
          rfl
      · rw [List.filterMap_append, List.foldl_append, hvalue]
        simp [hmod, Nat.mul_comm, Nat.div_add_mod]

/-- A number of more than one digit does not begin with a zero. -/
lemma head_toDigits {n : ℕ} (h : radix ≤ n) : (Nat.toDigits radix n).head? ≠ some '0' := by
  induction n using Nat.strong_induction_on with
  | _ n ih =>
    rw [Nat.toDigits_of_base_le hone h, List.head?_append_of_ne_nil _ Nat.toDigits_ne_nil]
    have hpos : 0 < n / radix := Nat.div_pos h (by omega)
    obtain hlt | hle := Nat.lt_or_ge (n / radix) radix
    · rw [Nat.toDigits_of_lt_base hlt]
      simp [hpos.ne']
    · exact ih _ (Nat.div_lt_self (by omega) hone) hle

/-- **A number is read as it is written.** -/
lemma readNumber_toDigits {maxDigits bound n : ℕ} (allowZeroPrefix : Bool) {rest : List Char}
    (hn : n < bound) (hdigits : n < radix ^ maxDigits) (hmax : 0 < maxDigits)
    (hrest : Ends radix rest) :
    readNumber radix maxDigits allowZeroPrefix bound (Nat.toDigits radix n ++ rest) =
      some (n, rest) := by
  obtain ⟨hall, hvalue⟩ := filterMap_toDigits hone hradix n
  have htake : (Nat.toDigits radix n ++ rest).takeWhile (fun c => (toDigit radix c).isSome) =
      Nat.toDigits radix n := by
    rw [List.takeWhile_append_of_pos hall]
    cases rest with
    | nil => simp
    | cons c rest => simp [hrest c rfl]
  have hlength := (Nat.length_toDigits_le_iff hone hmax).2 hdigits
  have hhead : ¬(!allowZeroPrefix ∧ (Nat.toDigits radix n ++ rest).head? = some '0' ∧
      1 < (Nat.toDigits radix n).length) := by
    rintro ⟨-, hzero, hmany⟩
    rw [List.head?_append_of_ne_nil _ Nat.toDigits_ne_nil] at hzero
    obtain hlt | hle := Nat.lt_or_ge n radix
    · rw [Nat.toDigits_of_lt_base hlt] at hmany
      simp at hmany
    · exact head_toDigits hone hradix hle hzero
  unfold readNumber
  simp only [htake, hvalue]
  rw [if_neg (by simp [hlength]), if_neg hhead, if_pos hn, List.drop_left]

end Parser

/-! ### The older family -/

namespace Ipv4Addr

/-- The text of an address, as its characters. -/
def chars (a : Ipv4Addr) : List Char :=
  Nat.toDigits 10 (a.toNat / 16777216) ++ '.' :: (Nat.toDigits 10 (a.toNat / 65536 % 256) ++
    '.' :: (Nat.toDigits 10 (a.toNat / 256 % 256) ++ '.' :: Nat.toDigits 10 (a.toNat % 256)))

lemma toList_text (a : Ipv4Addr) : (text a).toList = a.chars := by
  simp [text, octets, chars]

/-- **An address of the older family is read as it is written**, up to the first character that is
no digit. -/
lemma readIpv4Addr_chars (a : Ipv4Addr) {rest : List Char} (hrest : Parser.Ends 10 rest) :
    Parser.readIpv4Addr (a.chars ++ rest) = some (a, rest) := by
  have hdot (rest : List Char) : Parser.Ends 10 ('.' :: rest) := .cons (by decide) rest
  have hoctet {n : ℕ} (hn : n < 256) {rest : List Char} (hrest : Parser.Ends 10 rest) :
      Parser.readNumber 10 3 false 256 (Nat.toDigits 10 n ++ rest) = some (n, rest) :=
    Parser.readNumber_toDigits (by decide) (by decide) false hn (by omega) (by decide) hrest
  have ha := a.isLt
  have hvalue : ((a.toNat / 16777216 * 256 + a.toNat / 65536 % 256) * 256 +
      a.toNat / 256 % 256) * 256 + a.toNat % 256 = a.toNat := by
    omega
  simp only [Parser.readIpv4Addr, chars, List.append_assoc, List.cons_append,
    Parser.readSeparator, Nat.lt_irrefl, if_false, Nat.zero_lt_succ, if_true,
    Parser.readGivenChar, hoctet (by omega : a.toNat / 16777216 < 256) (hdot _),
    hoctet (Nat.mod_lt _ (by decide)) (hdot _), hoctet (Nat.mod_lt _ (by decide)) hrest,
    Option.bind_eq_bind, Option.bind_some, hvalue]
  simp

end Ipv4Addr

/-! ### Groups -/

namespace Parser

/-- What is no digits with a point behind them is no address of the older family. -/
lemma readIpv4Addr_none {text : List Char}
    (h : (text.dropWhile fun c => (toDigit 10 c).isSome).head? ≠ some '.') :
    readIpv4Addr text = none := by
  have hdrop : text.drop (text.takeWhile fun c => (toDigit 10 c).isSome).length =
      text.dropWhile fun c => (toDigit 10 c).isSome := by
    conv_lhs => rw [← List.takeWhile_append_dropWhile (p := fun c => (toDigit 10 c).isSome)
      (l := text)]
    rw [List.drop_left' (by rw [List.takeWhile_append_dropWhile])]
  have hdot : readGivenChar '.' (text.dropWhile fun c => (toDigit 10 c).isSome) = none := by
    cases hrest : text.dropWhile fun c => (toDigit 10 c).isSome with
    | nil => rfl
    | cons c rest =>
      rw [hrest] at h
      exact if_neg fun hc => h (congrArg some hc)
  unfold readIpv4Addr
  cases hfirst : readNumber 10 3 false 256 text with
  | none => simp [readSeparator, hfirst]
  | some r =>
    have hr : r.2 = text.dropWhile fun c => (toDigit 10 c).isSome := by
      unfold readNumber at hfirst
      simp only at hfirst
      split_ifs at hfirst
      cases hfirst
      exact hdrop
    simp [readSeparator, hfirst, hr, hdot]

/-- The text goes on with nothing, or with a separator. -/
def Halts (rest : List Char) : Prop := rest = [] ∨ ∃ later, rest = ':' :: later

/-- The text goes on with nothing, or with the separators a run of zeros is left out between. -/
def Stops (rest : List Char) : Prop := rest = [] ∨ ∃ later, rest = ':' :: ':' :: later

lemma Stops.halts {rest : List Char} (h : Stops rest) : Halts rest :=
  h.imp_right fun ⟨later, hrest⟩ => ⟨':' :: later, hrest⟩

lemma Halts.ends {rest : List Char} (h : Halts rest) : Ends 16 rest := by
  obtain rfl | ⟨later, rfl⟩ := h
  · exact .nil 16
  · exact .cons (by decide) _

lemma readIpv4Addr_halts {rest : List Char} (h : Halts rest) : readIpv4Addr rest = none := by
  refine readIpv4Addr_none ?_
  obtain rfl | ⟨later, rfl⟩ := h
  · simp
  · simp [show toDigit 10 ':' = none by decide]

/-- A group is not the first of an address of the older family. -/
lemma readIpv4Addr_group (n : ℕ) {rest : List Char} (hrest : Halts rest) :
    readIpv4Addr (Nat.toDigits 16 n ++ rest) = none := by
  refine readIpv4Addr_none ?_
  rw [List.dropWhile_append]
  split
  · obtain rfl | ⟨later, rfl⟩ := hrest
    · simp
    · simp [show toDigit 10 ':' = none by decide]
  · next hleft =>
    rw [List.head?_append_of_ne_nil _ (by simpa using hleft)]
    intro hdot
    have hmem := (List.dropWhile_sublist _).subset (List.mem_of_mem_head? hdot)
    have hdigit := (filterMap_toDigits (by decide) (by decide : 16 ≤ 16) n).1 '.' hmem
    cases hdigit

/-- Nothing that goes on with a separator is a group. -/
lemma readNumber_none {rest : List Char} (h : Ends 16 rest) :
    readNumber 16 4 true 65536 rest = none := by
  have htake : rest.takeWhile (fun c => (toDigit 16 c).isSome) = [] := by
    cases rest with
    | nil => rfl
    | cons c rest => simp [h c rfl]
  unfold readNumber
  simp [htake]

/-- Groups with a separator before each, but for the first of all. -/
def groupsFrom : ℕ → List ℕ → List Char
  | _, [] => []
  | i, n :: later =>
    (if 0 < i then [':'] else []) ++ (Nat.toDigits 16 n ++ groupsFrom (i + 1) later)

lemma groupsFrom_halts (i : ℕ) (groups : List ℕ) {rest : List Char} (hrest : Stops rest) :
    Halts (groupsFrom (i + 1) groups ++ rest) := by
  cases groups with
  | nil => exact hrest.halts
  | cons n later => exact .inr ⟨_, rfl⟩

section

variable {α : Type} {inner : Parser α}

/-- What is written behind its separator is read behind it. -/
lemma readSeparator_written (i : ℕ) (text : List Char) :
    readSeparator ':' i inner ((if 0 < i then [':'] else []) ++ text) = inner text := by
  unfold readSeparator
  split <;> rfl

/-- Behind the last of what is written there is no other. -/
lemma readSeparator_stops (i : ℕ) {rest : List Char} (hrest : Stops rest)
    (hnone : ∀ rest, Halts rest → inner rest = none) : readSeparator ':' i inner rest = none := by
  unfold readSeparator
  split
  · obtain rfl | ⟨later, rfl⟩ := hrest
    · rfl
    · exact hnone (':' :: later) (.inr ⟨later, rfl⟩)
  · exact hnone rest hrest.halts

end

lemma readGroups_stops (left i : ℕ) {rest : List Char} (h : Stops rest) :
    readGroups left i rest = ([], false, rest) := by
  cases left with
  | zero => rfl
  | succ left =>
    have haddress : readSeparator ':' i readIpv4Addr rest = none :=
      readSeparator_stops i h fun rest hrest => readIpv4Addr_halts hrest
    have hgroup : readSeparator ':' i (readNumber 16 4 true 65536) rest = none :=
      readSeparator_stops i h fun rest hrest => readNumber_none hrest.ends
    simp [readGroups, haddress, hgroup]

/-- **Groups are read as they are written**, as many as there is room for. -/
lemma readGroups_groupsFrom {left : ℕ} (i : ℕ) {groups : List ℕ} {rest : List Char}
    (hroom : groups.length ≤ left) (hgroups : ∀ n ∈ groups, n < 65536) (hrest : Stops rest) :
    readGroups left i (groupsFrom i groups ++ rest) = (groups, false, rest) := by
  induction groups generalizing left i with
  | nil => exact readGroups_stops left i hrest
  | cons n later ih =>
    obtain ⟨hn, hlater⟩ := List.forall_mem_cons.1 hgroups
    obtain ⟨left, rfl⟩ : ∃ left', left = left' + 1 :=
      ⟨left - 1, by rw [List.length_cons] at hroom; omega⟩
    have hhalts := groupsFrom_halts i later hrest
    have haddress : readSeparator ':' i readIpv4Addr
        (groupsFrom i (n :: later) ++ rest) = none := by
      rw [groupsFrom, List.append_assoc, List.append_assoc, readSeparator_written]
      exact readIpv4Addr_group n hhalts
    have hgroup : readSeparator ':' i (readNumber 16 4 true 65536)
        (groupsFrom i (n :: later) ++ rest) = some (n, groupsFrom (i + 1) later ++ rest) := by
      rw [groupsFrom, List.append_assoc, List.append_assoc, readSeparator_written]
      exact readNumber_toDigits (by decide) (by decide) true hn (by omega) (by decide) hhalts.ends
    rw [readGroups]
    simp only [haddress, hgroup, ite_self, ih (i + 1) (Nat.le_of_succ_le_succ hroom) hlater]

end Parser

/-! ### The newer family -/

namespace Ipv6Addr

lemma length_segments (a : Ipv6Addr) : (segments a).length = 8 := by simp [segments]

lemma lt_of_mem_segments {a : Ipv6Addr} {n : ℕ} (h : n ∈ segments a) : n < 65536 := by
  obtain ⟨i, -, rfl⟩ := List.mem_map.1 h
  exact Nat.mod_lt _ (by decide)

/-- An address is made of its groups. -/
lemma fromSegments_segments (a : Ipv6Addr) : Parser.fromSegments (segments a) = a := by
  have ha := a.isLt
  refine BitVec.eq_of_toNat_eq ?_
  simp only [Parser.fromSegments, segments, List.range, List.range.loop, List.map_cons,
    List.map_nil, List.foldl_cons, List.foldl_nil, BitVec.toNat_ofNat]
  norm_num
  omega

lemma toList_subslice (groups : List ℕ) :
    (subslice groups).toList = Parser.groupsFrom 0 groups := by
  have hbehind (i : ℕ) (n : ℕ) (later : List ℕ) :
      [':'].intercalate ((n :: later).map (Nat.toDigits 16)) =
        Nat.toDigits 16 n ++ Parser.groupsFrom (i + 1) later := by
    induction later generalizing i n with
    | nil => simp [Parser.groupsFrom]
    | cons m later ih =>
      rw [List.map_cons, List.map_cons, List.intercalate_cons_cons, ← List.map_cons, ih (i + 1) m]
      simp [Parser.groupsFrom]
  cases groups with
  | nil => rfl
  | cons n later =>
    have hmap : (List.map (fun s => String.ofList (Nat.toDigits 16 s)) (n :: later)).map
        String.toList = (n :: later).map (Nat.toDigits 16) := by
      rw [List.map_map]
      exact List.map_congr_left fun m _ => String.toList_ofList
    rw [subslice, String.toList_intercalate, hmap]
    exact hbehind 0 n later

/-! ### The run of zeros that is left out -/

/-- Some groups in a row, all of them zero. -/
def IsRun (groups : List ℕ) (run : ℕ × ℕ) : Prop :=
  ∀ j, run.1 ≤ j → j < run.1 + run.2 → groups[j]? = some 0

lemma IsRun.append {groups : List ℕ} {run : ℕ × ℕ} (h : IsRun groups run) (later : List ℕ) :
    IsRun (groups ++ later) run := fun j hlow hhigh => by
  have hj := h j hlow hhigh
  rw [List.getElem?_append_left (List.getElem?_eq_some_iff.1 hj).1, hj]

/-- One group looked at: the longest run so far, the one it may be in, and how many came before. -/
def lookAt (s : (ℕ × ℕ) × (ℕ × ℕ) × ℕ) (n : ℕ) : (ℕ × ℕ) × (ℕ × ℕ) × ℕ :=
  if n = 0 then
    let current := if s.2.1.2 = 0 then (s.2.2, 1) else (s.2.1.1, s.2.1.2 + 1)
    (if s.1.2 < current.2 then current else s.1, current, s.2.2 + 1)
  else (s.1, (0, 0), s.2.2 + 1)

/-- What is known once some groups were looked at. -/
structure Looked (groups : List ℕ) (s : (ℕ × ℕ) × (ℕ × ℕ) × ℕ) : Prop where
  longest : IsRun groups s.1
  current : IsRun groups s.2.1
  reaches : 0 < s.2.1.2 → s.2.1.1 + s.2.1.2 = groups.length
  count : s.2.2 = groups.length

lemma Looked.lookAt {groups : List ℕ} {s : (ℕ × ℕ) × (ℕ × ℕ) × ℕ} (h : Looked groups s) (n : ℕ) :
    Looked (groups ++ [n]) (lookAt s n) := by
  have hlength : (groups ++ [n]).length = groups.length + 1 := by simp
  unfold Ipv6Addr.lookAt
  split
  · next hzero =>
    have hlast : (groups ++ [n])[groups.length]? = some 0 := by simp [hzero]
    have hcurrent : IsRun (groups ++ [n])
        (if s.2.1.2 = 0 then (s.2.2, 1) else (s.2.1.1, s.2.1.2 + 1)) := by
      split
      · intro j hlow hhigh
        obtain rfl : j = groups.length := by
          rw [h.count] at hlow hhigh
          simp only at hlow hhigh
          omega
        exact hlast
      · next hsome =>
        intro j hlow hhigh
        have hreaches := h.reaches (by omega)
        obtain hj | hj := Nat.lt_or_ge j (s.2.1.1 + s.2.1.2)
        · exact h.current.append [n] j hlow hj
        · obtain rfl : j = groups.length := by
            simp only at hhigh
            omega
          exact hlast
    have hlongest {run : ℕ × ℕ} (hrun : IsRun (groups ++ [n]) run) :
        IsRun (groups ++ [n]) (if s.1.2 < run.2 then run else s.1) := by
      split
      · exact hrun
      · exact h.longest.append [n]
    refine ⟨hlongest hcurrent, hcurrent, fun _ => ?_, by rw [hlength, h.count]⟩
    · dsimp only
      rw [hlength]
      split
      · rw [h.count]
      · have := h.reaches (by omega)
        dsimp only
        omega
  · exact ⟨h.longest.append [n], fun j _ hhigh => absurd hhigh (Nat.not_lt_zero j),
      fun hpos => absurd hpos (Nat.lt_irrefl 0), by rw [hlength, h.count]⟩

/-- What is left out is a run of zeros. -/
lemma zeroes_isRun (groups : List ℕ) : IsRun groups (zeroes groups) := by
  have hempty : Looked [] ((0, 0), (0, 0), 0) :=
    ⟨fun j _ hj => absurd hj (Nat.not_lt_zero j), fun j _ hj => absurd hj (Nat.not_lt_zero j),
      fun h => absurd h (Nat.lt_irrefl 0), rfl⟩
  have hlooked : Looked groups (groups.foldl lookAt ((0, 0), (0, 0), 0)) := by
    induction groups using List.reverseRecOn with
    | nil => exact hempty
    | append_singleton groups n ih =>
      rw [List.foldl_append]
      exact ih.lookAt n
  exact hlooked.longest

/-- **The groups left out are put back.** -/
lemma IsRun.restored {groups : List ℕ} {run : ℕ × ℕ} (h : IsRun groups run) (hsome : 0 < run.2) :
    run.1 + run.2 ≤ groups.length ∧
      groups.take run.1 ++ List.replicate run.2 0 ++ groups.drop (run.1 + run.2) = groups := by
  have hlast := h (run.1 + run.2 - 1) (by omega) (by omega)
  have hfits : run.1 + run.2 ≤ groups.length := by
    have := (List.getElem?_eq_some_iff.1 hlast).1
    omega
  refine ⟨hfits, ?_⟩
  have hzeros : (groups.drop run.1).take run.2 = List.replicate run.2 0 := by
    refine List.ext_getElem? fun j => ?_
    rw [List.getElem?_replicate]
    split
    · next hj =>
      rw [List.getElem?_take_of_lt hj, List.getElem?_drop]
      exact h _ (by omega) (by omega)
    · next hj => exact List.getElem?_eq_none (by simp; omega)
  rw [← hzeros, List.append_assoc, ← List.drop_drop, List.take_append_drop, List.take_append_drop]

/-! ### Reading an address back -/

/-- The last 32 bits of a mapped address, and what stands before them. -/
lemma fromSegments_mapped {a : Ipv6Addr} {v4 : Ipv4Addr} (h : toIpv4Mapped a = some v4) :
    Parser.fromSegments
      [0, 0, 0, 0, 0, 0xffff, v4.toNat / 65536, v4.toNat % 65536] = a := by
  unfold toIpv4Mapped at h
  split at h
  · next hhigh =>
    cases h
    have ha := a.isLt
    refine BitVec.eq_of_toNat_eq ?_
    simp only [Parser.fromSegments, List.foldl_cons, List.foldl_nil, BitVec.toNat_ofNat]
    norm_num at hhigh ⊢
    omega
  · cases h

/-- The groups around those that are left out. -/
lemma readIpv6Addr_omitted {head tail : List ℕ} (hfew : head.length + tail.length < 8)
    (hhead : ∀ n ∈ head, n < 65536) (htail : ∀ n ∈ tail, n < 65536) :
    Parser.readIpv6Addr (Parser.groupsFrom 0 head ++ ':' :: ':' :: Parser.groupsFrom 0 tail) =
      some (Parser.fromSegments
        (head ++ List.replicate (8 - head.length - tail.length) 0 ++ tail), []) := by
  have hfirst := Parser.readGroups_groupsFrom 0 (by omega : head.length ≤ 8) hhead
    (.inr ⟨Parser.groupsFrom 0 tail, rfl⟩)
  have hroom : tail.length ≤ 7 - head.length := by omega
  have hlast := Parser.readGroups_groupsFrom 0 hroom htail (.inl rfl)
  rw [List.append_nil] at hlast
  have hfull : head.length ≠ 8 := by omega
  unfold Parser.readIpv6Addr
  simp [hfirst, hfull, Parser.readGivenChar, hlast]

/-- What is written of a mapped address behind the zeros left out. -/
lemma readGroups_mapped (v4 : Ipv4Addr) :
    Parser.readGroups 7 0 (Nat.toDigits 16 0xffff ++ ':' :: v4.chars) =
      ([0xffff, v4.toNat / 65536, v4.toNat % 65536], true, []) := by
  have hhalts : Parser.Halts (':' :: v4.chars) := .inr ⟨_, rfl⟩
  have haddress : Parser.readSeparator ':' 1 Parser.readIpv4Addr (':' :: v4.chars) =
      some (v4, []) := by
    have hread := v4.readIpv4Addr_chars (.nil 10)
    rw [List.append_nil] at hread
    exact hread
  have hgroup : Parser.readNumber 16 4 true 65536 (Nat.toDigits 16 0xffff ++ ':' :: v4.chars) =
      some (0xffff, ':' :: v4.chars) :=
    Parser.readNumber_toDigits (by decide) (by decide) true (by decide) (by decide) (by decide)
      hhalts.ends
  rw [Parser.readGroups]
  simp only [Nat.zero_lt_succ, if_true, Parser.readSeparator, Nat.lt_irrefl, if_false,
    Parser.readIpv4Addr_group _ hhalts, hgroup]
  rw [Parser.readGroups]
  simp only [Nat.zero_lt_succ, if_true, haddress]

/-- How an address is written: as a mapped one, with a run of zeros left out, or with all its
groups. -/
inductive Text (a : Ipv6Addr) (text : List Char) : Prop
  | mapped (v4 : Ipv4Addr) (h : toIpv4Mapped a = some v4)
      (ht : text = ':' :: ':' :: (Nat.toDigits 16 0xffff ++ ':' :: v4.chars))
  | omitted (head tail : List ℕ) (zeros : ℕ) (hsome : 1 < zeros)
      (h : segments a = head ++ List.replicate zeros 0 ++ tail)
      (ht : text = Parser.groupsFrom 0 head ++ ':' :: ':' :: Parser.groupsFrom 0 tail)
  | whole (ht : text = Parser.groupsFrom 0 (segments a))

lemma text_cases (a : Ipv6Addr) : Text a (text a).toList := by
  unfold text
  split
  · next v4 hmapped =>
    refine .mapped v4 hmapped ?_
    rw [String.toList_append, Ipv4Addr.toList_text]
    rfl
  · dsimp only
    split
    · next hsome =>
      have hrestored := (zeroes_isRun (segments a)).restored (by omega)
      refine .omitted _ _ _ hsome hrestored.2.symm ?_
      rw [String.toList_append, String.toList_append, toList_subslice, toList_subslice,
        List.append_assoc]
      rfl
    · exact .whole (toList_subslice _)

/-- **An address of the newer family is read as it is written**, the zeros left out of it or not. -/
lemma readIpv6Addr_text (a : Ipv6Addr) : Parser.readIpv6Addr (text a).toList = some (a, []) := by
  cases text_cases a with
  | mapped v4 h ht =>
    rw [ht]
    have hstops := Parser.readGroups_stops 8 0
      (.inr ⟨Nat.toDigits 16 0xffff ++ ':' :: v4.chars, rfl⟩)
    unfold Parser.readIpv6Addr
    simpa [hstops, Parser.readGivenChar, readGroups_mapped] using fromSegments_mapped h
  | omitted head tail zeros hsome h ht =>
    have hlength := congrArg List.length h
    rw [length_segments, List.length_append, List.length_append, List.length_replicate] at hlength
    have hsegments (n : ℕ) (hn : n ∈ head ∨ n ∈ tail) : n < 65536 := by
      refine lt_of_mem_segments (a := a) (h ▸ ?_)
      simp only [List.mem_append]
      tauto
    have hleft : 8 - head.length - tail.length = zeros := by omega
    rw [ht, readIpv6Addr_omitted (by omega) (fun n hn => hsegments n (.inl hn))
      (fun n hn => hsegments n (.inr hn)), hleft, ← h, fromSegments_segments]
  | whole ht =>
    have hgroups := Parser.readGroups_groupsFrom 0 (length_segments a).le
      (fun n => lt_of_mem_segments) (.inl rfl)
    rw [List.append_nil] at hgroups
    rw [ht]
    unfold Parser.readIpv6Addr
    simp [hgroups, length_segments, fromSegments_segments]

/-- It is not taken for an address of the older family. -/
lemma readIpv4Addr_text (a : Ipv6Addr) : Parser.readIpv4Addr (text a).toList = none := by
  have hgroups (head : List ℕ) {rest : List Char} (hrest : Parser.Stops rest) :
      Parser.readIpv4Addr (Parser.groupsFrom 0 head ++ rest) = none := by
    cases head with
    | nil => exact Parser.readIpv4Addr_halts hrest.halts
    | cons n later =>
      rw [Parser.groupsFrom, List.append_assoc, List.append_assoc]
      exact Parser.readIpv4Addr_group n (Parser.groupsFrom_halts 0 later hrest)
  cases text_cases a with
  | mapped v4 h ht => exact ht ▸ hgroups [] (.inr ⟨_, rfl⟩)
  | omitted head tail zeros hsome h ht => exact ht ▸ hgroups head (.inr ⟨_, rfl⟩)
  | whole ht =>
    rw [ht, ← List.append_nil (Parser.groupsFrom _ _)]
    exact hgroups _ (.inl rfl)

end Ipv6Addr

/-- **An address is read as it is written.** -/
theorem IpAddr.parse_text (a : IpAddr) : Parser.parse a.text = some a := by
  unfold Parser.parse
  cases a with
  | v4 a =>
    have hread := a.readIpv4Addr_chars (.nil 10)
    rw [List.append_nil] at hread
    simp [IpAddr.text, Ipv4Addr.toList_text, hread]
  | v6 a => simp [IpAddr.text, Ipv6Addr.readIpv4Addr_text, Ipv6Addr.readIpv6Addr_text]

/-! ### Prefixes -/

namespace Parser

lemma toDigit_slash (radix : ℕ) : toDigit radix '/' = none := by
  unfold toDigit
  simp

lemma slash_toDigits {radix : ℕ} (hone : 1 < radix) (hradix : radix ≤ 16) (n : ℕ) :
    '/' ∉ Nat.toDigits radix n := by
  intro hmem
  have hdigit := (filterMap_toDigits hone hradix n).1 '/' hmem
  rw [toDigit_slash] at hdigit
  cases hdigit

lemma slash_groupsFrom (i : ℕ) (groups : List ℕ) : '/' ∉ groupsFrom i groups := by
  induction groups generalizing i with
  | nil => simp [groupsFrom]
  | cons n later ih =>
    have hdigits := slash_toDigits (by decide) (by decide : 16 ≤ 16) n
    simp only [groupsFrom, List.mem_append, not_or]
    exact ⟨by split <;> simp, hdigits, ih (i + 1)⟩

/-- A number of one byte is read as it is written. -/
lemma parseU8_text (n : UInt8) : parseU8 (toString n.toNat) = some n := by
  obtain ⟨hdigits, hvalue⟩ := filterMap_toDigits (by decide) (by decide : 10 ≤ 16) n.toNat
  have hplus : ∀ rest, Nat.toDigits 10 n.toNat ≠ '+' :: rest := by
    intro rest hrest
    have hdigit := hdigits '+' (hrest ▸ List.mem_cons_self)
    cases hdigit
  have hany : (Nat.toDigits 10 n.toNat).any (fun c => (toDigit 10 c).isNone) = false := by
    rw [List.any_eq_false]
    intro c hc
    simpa using Option.isSome_iff_ne_none.1 (hdigits c hc)
  have hchars : (toString n.toNat).toList = Nat.toDigits 10 n.toNat := by simp
  unfold parseU8
  rw [hchars]
  split
  · next rest hrest => exact absurd hrest (hplus rest)
  · simp [hany, hvalue, n.toNat_lt]

end Parser

lemma Ipv4Addr.slash_chars (a : Ipv4Addr) : '/' ∉ a.chars := by
  have hdigits (n : ℕ) := Parser.slash_toDigits (by decide) (by decide : 10 ≤ 16) n
  simp [chars, hdigits]

lemma IpAddr.slash_text (a : IpAddr) : '/' ∉ a.text.toList := by
  cases a with
  | v4 a =>
    rw [IpAddr.text, Ipv4Addr.toList_text]
    exact a.slash_chars
  | v6 a =>
    have hdigits := Parser.slash_toDigits (by decide) (by decide : 16 ≤ 16) 0xffff
    cases Ipv6Addr.text_cases a with
    | mapped v4 h ht => simp [IpAddr.text, ht, hdigits, v4.slash_chars]
    | omitted head tail zeros hsome h ht => simp [IpAddr.text, ht, Parser.slash_groupsFrom]
    | whole ht => simp [IpAddr.text, ht, Parser.slash_groupsFrom]

namespace Tun

/-- The length of the prefix that is one host. -/
def whole (a : IpAddr) : UInt8 := if a.isIpv4 then 32 else 128

/-- **A prefix is read as it is written**, where it is no longer than its address; a longer one is
refused. -/
theorem parsePrefix_text (p : Prefix) : parsePrefix p.text =
    if whole p.1 < p.2 then .error s!"`{p.text}` is longer than its address family allows"
    else .ok p := by
  have hchars : p.text.toList = p.1.text.toList ++ '/' :: (toString p.2.toNat).toList := by
    rw [Prefix.text, String.toList_append, String.toList_append, List.append_assoc]
    rfl
  have hall : ∀ c ∈ p.1.text.toList, decide (c ≠ '/') = true := fun c hc => by
    have := p.1.slash_text
    rw [decide_eq_true_eq]
    rintro rfl
    exact this hc
  have htake : p.text.toList.takeWhile (· ≠ '/') = p.1.text.toList := by
    rw [hchars, List.takeWhile_append_of_pos hall]
    simp
  have hdrop : p.text.toList.dropWhile (· ≠ '/') = '/' :: (toString p.2.toNat).toList := by
    rw [hchars, List.dropWhile_append_of_pos hall]
    simp
  unfold parsePrefix
  simp only [htake, hdrop, String.ofList_toList, IpAddr.parse_text, Parser.parseU8_text]
  rfl

/-- Whatever is read is no longer than its address. -/
lemma parsePrefix_fits {written : String} {p : Prefix} (h : parsePrefix written = .ok p) :
    ¬ whole p.1 < p.2 := by
  unfold parsePrefix at h
  dsimp only at h
  split at h
  · cases h
  · split at h
    · cases h
      exact UInt8.lt_irrefl _
    · split at h
      · cases h
      · change (if whole _ < _ then _ else _) = _ at h
        split at h
        · cases h
        · next hfits =>
          cases h
          exact hfits

end Tun

end Masqr

import Masqr.Lib.Bytes

/-!
Reading exact amounts from a stream that comes in pieces, and messages preceded by their length.

A read waits until it has as much as it was asked for. How the stream is cut into pieces is up to
whoever carries it, so nothing that is read may depend on it.
-/

namespace Masqr.Lib

/-- A stream: the pieces it comes in, and how it ends. -/
structure Incoming (α ε : Type*) where
  pieces : List (List α)
  ends : ε

namespace Incoming

variable {α ε : Type*}

/-- All that comes in. -/
def whole (s : Incoming α ε) : List α := s.pieces.flatten

/-- So many items, and the pieces that are left. -/
def take : ℕ → List (List α) → Option (List α × List (List α))
  | 0, pieces => some ([], pieces)
  | _ + 1, [] => none
  | n + 1, piece :: pieces =>
    if n + 1 ≤ piece.length then some (piece.take (n + 1), piece.drop (n + 1) :: pieces)
    else (take (n + 1 - piece.length) pieces).map fun r => (piece ++ r.1, r.2)

/-- **An exact read** gives what the whole stream begins with, and leaves the rest of it. -/
lemma take_some {n : ℕ} {pieces rest : List (List α)} {items : List α}
    (h : take n pieces = some (items, rest)) :
    items.length = n ∧ pieces.flatten = items ++ rest.flatten := by
  induction pieces generalizing n items with
  | nil =>
    cases n with
    | zero => cases h; simp
    | succ n => cases h
  | cons piece pieces ih =>
    cases n with
    | zero => cases h; simp
    | succ n =>
      unfold take at h
      split_ifs at h with hfits
      · cases h
        simp only [List.length_take, List.flatten_cons, ← List.append_assoc, List.take_append_drop]
        exact ⟨by omega, trivial⟩
      · obtain ⟨⟨items', rest'⟩, hr, heq⟩ := Option.map_eq_some_iff.1 h
        cases heq
        obtain ⟨hlength, hflat⟩ := ih hr
        simp only [List.length_append, List.flatten_cons, List.append_assoc, hflat]
        exact ⟨by omega, trivial⟩

/-- A read that is never filled is one the stream is too short for. -/
lemma take_none {n : ℕ} {pieces : List (List α)} (h : take n pieces = none) :
    pieces.flatten.length < n := by
  induction pieces generalizing n with
  | nil =>
    cases n with
    | zero => cases h
    | succ n => simp
  | cons piece pieces ih =>
    cases n with
    | zero => cases h
    | succ n =>
      unfold take at h
      split_ifs at h with hfits
      have := ih (Option.map_eq_none_iff.1 h)
      simp only [List.flatten_cons, List.length_append]
      omega

/-- What a stream begins with is read, however it is cut. -/
lemma take_of_append {items later : List α} {pieces : List (List α)}
    (h : pieces.flatten = items ++ later) :
    ∃ rest, take items.length pieces = some (items, rest) ∧ rest.flatten = later := by
  cases hr : take items.length pieces with
  | none =>
    have := take_none hr
    rw [h, List.length_append] at this
    omega
  | some r =>
    obtain ⟨items', rest⟩ := r
    obtain ⟨hlength, hflat⟩ := take_some hr
    obtain ⟨rfl, hlater⟩ := List.append_inj (hflat.symm.trans h) hlength
    exact ⟨rest, rfl, hlater⟩

end Incoming

/-! ### Messages preceded by their length -/

/-- A message with its length in two bytes before it. -/
def frame (message : List UInt8) : List UInt8 := toBe 2 message.length ++ message

/-- The length that two bytes announce is the one they were written for. -/
lemma ofBe_frame {message : List UInt8} (h : message.length < 65536) :
    ofBe 0 (toBe 2 message.length) = message.length := by
  rw [ofBe_toBe, Nat.zero_mul, Nat.zero_add, Nat.mod_eq_of_lt (by simpa using h)]

/-- Two bytes announce at most 65535. -/
lemma ofBe_pair_lt {header : List UInt8} (h : header.length = 2) : ofBe 0 header < 65536 := by
  have := ofBe_lt header 0
  rw [h] at this
  simpa using this

/-- A message and the two bytes that announce its length are its frame. -/
lemma frame_of_announced {header message : List UInt8} (hheader : header.length = 2)
    (h : message.length = ofBe 0 header) : frame message = header ++ message := by
  unfold frame
  rw [h, ← hheader, toBe_ofBe]

end Masqr.Lib

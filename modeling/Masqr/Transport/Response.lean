import Mathlib
import Masqr.Status
import Masqr.Transport.ControlStream

/-!
The response to the CONNECT: the request stream read up to its final status, in whatever pieces it
arrives.
-/

namespace Masqr.Transport

open Masqr.Lib

namespace Http3

variable [StatusCode]

/-- The status a frame of the request stream carries, or none where it is an interim one. -/
def responseStatus (incoming : Frame) : Except (Fault H3Error) (Option ℕ) :=
  if incoming.kind ≠ HEADERS then .error (.refused (.unexpected incoming.kind "request"))
  else do
    let fields ← Fault.mapError .qpack (Qpack.decode incoming.payload)
    match fields.filter fun field => field.1 = Qpack.ascii ":status" with
    | [] => .error (.refused (.message "has no :status"))
    | [status] =>
      match StatusCode.fromBytes status.2 with
      | none => .error (.refused (.message "has a :status that is not a status code"))
      | some status => .ok (if StatusCode.isInformational status then none else some status)
    | _ => .error (.refused (.message "has two :status fields"))

end Http3

namespace Quic

open Http3

section

variable [StatusCode]

/-- What has arrived of the request stream, read up to the final response. -/
def answered : Loop FrameReader (Except (Fault H3Error) (Option ℕ) × FrameReader) where
  body r :=
    match FrameReader.nextFrame.run r with
    | (.error problem, r) => .inr (.error (.refused problem), r)
    | (.ok none, r) => .inr (.ok none, r)
    | (.ok (some frame), r) =>
      match responseStatus frame with
      | .error fault => .inr (.error fault, r)
      | .ok (some status) => .inr (.ok (some status), r)
      | .ok none => .inl r
  measure r := r.pending.length
  lowers {r r'} h := by
    split at h
    · cases h
    · cases h
    · next frame r'' hn =>
      split at h
      · cases h
      · cases h
      · cases h
        exact reader.lowers hn

/-- What the request stream does once all of it that arrived is read: nothing yet, or it has ended,
or cannot be read any further. -/
inductive Ending
  | silent
  | finished
  | failed (problem : String)

def Ending.result : Ending → Option (Except (Fault ConnectError) ℕ)
  | silent => none
  | finished => some (.error (.refused (.h3 (.message "ended before it began"))))
  | failed problem => some (.error (.refused (.quicRead problem)))

/-- What is made of a whole answer. -/
def told (ending : Ending) : Except (Fault H3Error) (Option ℕ) →
    Option (Except (Fault ConnectError) ℕ)
  | .error .panic => some (.error .panic)
  | .error (.refused problem) => some (.error (.refused (.h3 problem)))
  | .ok (some status) => some (.ok status)
  | .ok none => ending.result

/-- The request stream read up to the final response: nothing is said while more has to arrive. -/
def readResponse (r : FrameReader) (chunks : List (List UInt8)) (ending : Ending) :
    Option (Except (Fault ConnectError) ℕ) :=
  match answered.run r, chunks with
  | (.ok none, r), chunk :: chunks => readResponse (r.extend chunk) chunks ending
  | (said, _), _ => told ending said

/-! ### Whole streams -/

/-- The first of some frames that is no interim response decides. -/
def verdict : List Frame × Option H3Error → Except (Fault H3Error) (Option ℕ)
  | ([], none) => .ok none
  | ([], some problem) => .error (.refused problem)
  | (frame :: later, problem) =>
    match responseStatus frame with
    | .error fault => .error fault
    | .ok (some status) => .ok (some status)
    | .ok none => verdict (later, problem)

/-- What is read of what arrived, and what is left to read. -/
def Reads (r : FrameReader) (result : Except (Fault H3Error) (Option ℕ) × FrameReader) : Prop :=
  match result with
  | (.ok none, r') =>
    (∀ later, verdict (frames (r.ahead later)) = verdict (frames (r'.ahead later))) ∧
      frames (r'.ahead []) = ([], none)
  | (said, _) => ∀ later, verdict (frames (r.ahead later)) = said

lemma answered_reads (r : FrameReader) : Reads r (answered.run r) := by
  refine answered.run_rule Reads (fun r result hstop => ?_) (fun r r' result hstep ih => ?_) r
  · have hcall := nextFrame_call r
    simp only [answered] at hstop
    split at hstop
    · next problem r' hn =>
      cases hstop
      rw [hn] at hcall
      exact fun later => by rw [hcall later, verdict]
    · next r' hn =>
      cases hstop
      rw [hn] at hcall
      exact ⟨fun later => by rw [hcall.1 later], hcall.2.1⟩
    · next frame r' hn =>
      rw [hn] at hcall
      split at hstop
      · next hstatus =>
        cases hstop
        exact fun later => by rw [hcall.2 later, verdict, hstatus]
      · next hstatus =>
        cases hstop
        exact fun later => by rw [hcall.2 later, verdict, hstatus]
      · cases hstop
  · have hcall := nextFrame_call r
    simp only [answered] at hstep
    split at hstep
    · cases hstep
    · cases hstep
    · next frame r'' hn =>
      rw [hn] at hcall
      split at hstep
      · cases hstep
      · cases hstep
      · next hstatus =>
        cases hstep
        have hsame (later : List UInt8) : verdict (frames (r.ahead later)) =
            verdict (frames (r'.ahead later)) := by
          rw [hcall.2 later, verdict, hstatus]
        obtain ⟨(problem | _ | status), r''⟩ := result
        · exact fun later => (hsame later).trans (ih later)
        · exact ⟨fun later => (hsame later).trans (ih.1 later), ih.2⟩
        · exact fun later => (hsame later).trans (ih later)

/-- **Where the stream is cut does not matter.** -/
lemma readResponse_eq (r : FrameReader) (chunks : List (List UInt8)) (ending : Ending) :
    readResponse r chunks ending = told ending (verdict (frames (r.ahead chunks.flatten))) := by
  induction chunks generalizing r with
  | nil =>
    have hreads := answered_reads r
    unfold readResponse
    rw [List.flatten_nil]
    generalize answered.run r = result at hreads ⊢
    obtain ⟨fault | _ | status, r'⟩ := result
    · rw [hreads []]
    · rw [hreads.1 [], hreads.2, verdict]
    · rw [hreads []]
  | cons chunk chunks ih =>
    have hreads := answered_reads r
    unfold readResponse
    generalize answered.run r = result at hreads ⊢
    obtain ⟨fault | _ | status, r'⟩ := result
    · rw [hreads]
    · have hahead : (r'.extend chunk).ahead chunks.flatten = r'.ahead (chunk ++ chunks.flatten) :=
        reader_follows.extend r' chunk chunks.flatten
      rw [hreads.1, List.flatten_cons, ← hahead]
      exact ih (r'.extend chunk)
    · rw [hreads]

end

/-! ### What a response is -/

/-- A status as it is written: three digits, the first of them not zero. -/
def Written (digits : List UInt8) (status : ℕ) : Prop :=
  100 ≤ status ∧ status < 1000 ∧ digits = Qpack.ascii (toString status)

/-- A field section with one status, whatever other fields there are. -/
def HasStatus (payload : List UInt8) (status : ℕ) : Prop :=
  ∃ fields digits, Qpack.IsSection payload fields ∧
    fields.filter (fun field => field.1 = Qpack.ascii ":status") =
      [(Qpack.ascii ":status", digits)] ∧
    Written digits status

/-- The stream begins with a final response: behind any frames of unknown types and any interim
responses, each of them whole. -/
inductive Responds : List UInt8 → ℕ → Prop
  | final {stream payload rest : List UInt8} {status : ℕ} (h : Begins stream HEADERS payload rest)
      (hmax : payload.length ≤ MAX_FRAME) (hstatus : HasStatus payload status)
      (hfinal : 200 ≤ status) : Responds stream status
  | interim {stream payload rest : List UInt8} {status later : ℕ}
      (h : Begins stream HEADERS payload rest) (hmax : payload.length ≤ MAX_FRAME)
      (hstatus : HasStatus payload status) (hinterim : status < 200)
      (hlater : Responds rest later) : Responds stream later
  | unknown {stream payload rest : List UInt8} {kind later : ℕ}
      (h : Begins stream kind payload rest) (hunknown : isKnown kind = false)
      (hlater : Responds rest later) : Responds stream later

lemma ascii_toString {n : ℕ} (hlow : 100 ≤ n) (hhigh : n < 1000) : Qpack.ascii (toString n) =
    [UInt8.ofNat (48 + n / 100), UInt8.ofNat (48 + n / 10 % 10), UInt8.ofNat (48 + n % 10)] := by
  have hdigits : (toString n).toList =
      [(n / 10 / 10).digitChar, (n / 10 % 10).digitChar, (n % 10).digitChar] := by
    rw [Nat.toString_eq_ofList_toDigits, String.toList_ofList,
      Nat.toDigits_of_base_le (by decide) (by omega : 10 ≤ n),
      Nat.toDigits_of_base_le (by decide) (by omega : 10 ≤ n / 10),
      Nat.toDigits_of_lt_base (by omega : n / 10 / 10 < 10)]
    rfl
  rw [Qpack.ascii, hdigits]
  simp only [List.map_cons, List.map_nil, Nat.div_div_eq_div_mul,
    Nat.toNat_digitChar_of_lt_ten (by omega : n / (10 * 10) < 10),
    Nat.toNat_digitChar_of_lt_ten (Nat.mod_lt _ (by decide : 0 < 10))]

/-- **A status is read exactly as it is written.** -/
lemma fromBytes_written [StatusCode] {digits : List UInt8} {status : ℕ} :
    StatusCode.fromBytes digits = some status ↔ Written digits status := by
  rw [StatusCode.fromBytes_iff, Written]
  refine and_congr_right fun hlow => and_congr_right fun hhigh => ?_
  rw [ascii_toString hlow hhigh]

/-- A field section denotes one list of fields. -/
lemma isSection_iff {payload : List UInt8} {fields : List Qpack.Field} :
    Fault.mapError H3Error.qpack (Qpack.decode payload) = .ok fields ↔
      Qpack.IsSection payload fields :=
  Fault.mapError_eq_ok.trans ⟨Qpack.decode_ok, Qpack.decode_of⟩

/-- No field section stops the decoder short. -/
lemma decode_safe (payload : List UInt8) : Safe (Qpack.decode payload) := by
  refine (Qpack.getInt_safe (by omega) _).bind fun _ hinserts => ?_
  refine (Qpack.advance_int_safe (by omega) hinserts).bind fun _ _ => ?_
  split
  · exact safe_refused _
  · refine (Qpack.getInt_safe (by omega) _).bind fun _ hbase => ?_
    refine (Qpack.advance_int_safe (by omega) hbase).bind fun rest _ => ?_
    have hlines := Qpack.lines_safe rest
    generalize Qpack.lines.all rest = all at hlines ⊢
    obtain ⟨fields, _ | fault⟩ := all
    · exact safe_ok _
    · exact fun hpanic => hlines (congrArg some (Except.error.inj hpanic))

section

variable [StatusCode]

lemma responseStatus_safe (frame : Frame) : Safe (responseStatus frame) := by
  unfold responseStatus
  split
  · exact safe_refused _
  · refine (decode_safe _).mapError.bind fun fields _ => ?_
    split
    · exact safe_refused _
    · split
      · exact safe_refused _
      · exact safe_ok _
    · exact safe_refused _

lemma verdict_safe (frames : List Frame) (problem : Option H3Error) :
    Safe (verdict (frames, problem)) := by
  induction frames with
  | nil =>
    cases problem with
    | none =>
      rw [verdict]
      exact safe_ok _
    | some problem =>
      rw [verdict]
      exact safe_refused _
  | cons frame later ih =>
    have hsafe := responseStatus_safe frame
    rw [verdict]
    split
    · next fault hfault =>
      rw [hfault] at hsafe
      exact fun hpanic => hsafe (congrArg _ (Except.error.inj hpanic))
    · exact safe_ok _
    · exact ih

/-- **What a frame of the request stream says.** -/
lemma responseStatus_ok {frame : Frame} {said : Option ℕ} : responseStatus frame = .ok said ↔
    frame.kind = HEADERS ∧ ∃ status, HasStatus frame.payload status ∧
      said = if status < 200 then none else some status := by
  have hinterim {status : ℕ} (h : 100 ≤ status) :
      StatusCode.isInformational status = decide (status < 200) := by
    rw [Bool.eq_iff_iff, StatusCode.isInformational_iff, decide_eq_true_iff, and_iff_right h]
  unfold responseStatus
  by_cases hkind : frame.kind = HEADERS
  · rw [if_neg (by simpa using hkind), bind_eq_ok]
    constructor
    · rintro ⟨fields, hfields, hsaid⟩
      rw [isSection_iff] at hfields
      split at hsaid
      · cases hsaid
      · next field hone =>
        split at hsaid
        · cases hsaid
        · next status hstatus =>
          have hname : field.1 = Qpack.ascii ":status" := by
            have hmem : field ∈ fields.filter fun field => field.1 = Qpack.ascii ":status" := by
              rw [hone]
              exact List.mem_singleton_self field
            simpa using (List.mem_filter.1 hmem).2
          have hwritten := fromBytes_written.1 hstatus
          have hsaid' := (Except.ok.inj hsaid).symm
          refine ⟨hkind, status, ⟨fields, field.2, hfields, ?_, hwritten⟩, ?_⟩
          · rw [hone, ← hname]
          · simpa [hinterim hwritten.1] using hsaid'
      · cases hsaid
    · rintro ⟨-, status, ⟨fields, digits, hfields, hone, hwritten⟩, rfl⟩
      refine ⟨fields, isSection_iff.2 hfields, ?_⟩
      simp only [hone, fromBytes_written.2 hwritten, hinterim hwritten.1, decide_eq_true_eq]
  · rw [if_pos hkind]
    exact iff_of_false (fun h => by cases h) fun h => hkind h.1

lemma responseStatus_headers {payload : List UInt8} {status : ℕ} (h : HasStatus payload status) :
    responseStatus ⟨HEADERS, payload⟩ = .ok (if status < 200 then none else some status) :=
  responseStatus_ok.2 ⟨rfl, status, h, rfl⟩

/-- The frame at the front, and what its stream comes to. -/
lemma verdict_known {stream payload rest : List UInt8} {said : Option ℕ}
    (h : Begins stream HEADERS payload rest) (hmax : payload.length ≤ MAX_FRAME)
    (hsaid : responseStatus ⟨HEADERS, payload⟩ = .ok said) :
    verdict (frames stream) = match said with
      | some status => .ok (some status)
      | none => verdict (frames rest) := by
  rw [frames_item (h.take_known rfl hmax)]
  simp only [Option.toList_some, List.singleton_append, verdict, hsaid]
  cases said <;> rfl

lemma Responds.verdict {stream : List UInt8} {status : ℕ} (h : Responds stream status) :
    verdict (frames stream) = .ok (some status) := by
  induction h with
  | final h hmax hstatus hfinal =>
    have hsaid := responseStatus_headers hstatus
    rw [if_neg (Nat.not_lt.2 hfinal)] at hsaid
    exact verdict_known h hmax hsaid
  | interim h hmax hstatus hinterim hlater ih =>
    have hsaid := responseStatus_headers hstatus
    rw [if_pos hinterim] at hsaid
    rw [verdict_known h hmax hsaid, ih]
  | unknown h hunknown hlater ih =>
    rw [frames_item (h.take_unknown hunknown)]
    exact ih

/-- What is read as a final response is one. -/
lemma responds_of_verdict {stream : List UInt8} {status : ℕ}
    (h : Quic.verdict (frames stream) = .ok (some status)) : Responds stream status := by
  induction hn : stream.length using Nat.strong_induction_on generalizing stream with
  | _ n ih =>
    cases hh : Varint.header stream with
    | none =>
      have htake : framing.take stream = .ok none := by simp only [framing, hh]
      rw [frames_more htake, verdict] at h
      cases h
    | some header =>
      obtain ⟨kind, length, used⟩ := header
      obtain ⟨hpos, -, hused⟩ := Varint.header_some hh
      have hshorter : ((stream.drop used).drop length).length < n := by
        rw [List.length_drop, List.length_drop]
        omega
      by_cases hwhole : length ≤ (stream.drop used).length
      · have hbegins := Begins.of_header hh hwhole
        have hpayload : ((stream.drop used).take length).length = length := by
          rw [List.length_take, Nat.min_eq_left hwhole]
        by_cases hknown : isKnown kind = true
        · by_cases hmax : length ≤ MAX_FRAME
          · have htake := hbegins.take_known hknown (hpayload.trans_le hmax)
            rw [frames_item htake] at h
            simp only [Option.toList_some, List.singleton_append, verdict] at h
            split at h
            · cases h
            · next said hsaid =>
              cases h
              obtain ⟨hkind, status', hstatus, hfinal⟩ := responseStatus_ok.1 hsaid
              obtain rfl : kind = HEADERS := hkind
              split at hfinal
              · cases hfinal
              · next hlow =>
                cases hfinal
                exact .final hbegins (hpayload.trans_le hmax) hstatus (Nat.not_lt.1 hlow)
            · next hsaid =>
              obtain ⟨hkind, status', hstatus, hinterim⟩ := responseStatus_ok.1 hsaid
              obtain rfl : kind = HEADERS := hkind
              split at hinterim
              · next hlow =>
                exact .interim hbegins (hpayload.trans_le hmax) hstatus hlow (ih _ hshorter h rfl)
              · cases hinterim
          · have htake := hbegins.take_long hknown (by omega)
            rw [frames_fail htake, verdict] at h
            cases h
        · have hunknown : isKnown kind = false := by simpa using hknown
          rw [frames_item (hbegins.take_unknown hunknown)] at h
          exact .unknown hbegins hunknown (ih _ hshorter h rfl)
      · have hnothing : frames [] = ([], none) := frames_more rfl
        have hshort : (stream.drop used).drop length = [] := List.drop_eq_nil_of_le (by omega)
        have htake : framing.take stream = if isKnown kind = false then .ok (some (none, []))
            else if MAX_FRAME < length then .error (.frameTooLong kind length) else .ok none := by
          simp only [framing, hh, hshort, if_pos (Nat.lt_of_not_le hwhole)]
        split_ifs at htake
        · rw [frames_item htake, hnothing] at h
          have hnone : Quic.verdict ([], none) = .ok (some status) := h
          rw [Quic.verdict] at hnone
          cases hnone
        · rw [frames_fail htake, verdict] at h
          cases h
        · rw [frames_more htake, verdict] at h
          cases h

/-- **The response is read alike however it arrives**: the status told is that of the final response
the request stream begins with, behind any interim ones and any frames of unknown types, and none is
told otherwise; nothing an endpoint sends stops the reader short. -/
theorem readResponse_iff (chunks : List (List UInt8)) (ending : Ending) :
    (∀ status, readResponse .new chunks ending = some (.ok status) ↔
      Responds chunks.flatten status) ∧
    readResponse .new chunks ending ≠ some (.error .panic) ∧
    ∀ chunks', chunks'.flatten = chunks.flatten →
      readResponse .new chunks' ending = readResponse .new chunks ending := by
  have hread (chunks : List (List UInt8)) : readResponse .new chunks ending =
      told ending (verdict (frames chunks.flatten)) := readResponse_eq .new chunks ending
  refine ⟨fun status => ?_, ?_, fun chunks' hsame => ?_⟩
  · rw [hread]
    constructor
    · intro htold
      refine responds_of_verdict ?_
      generalize Quic.verdict (frames chunks.flatten) = said at htold ⊢
      obtain (_ | problem) | (_ | status') := said
      · cases htold
      · cases htold
      · cases ending <;> cases htold
      · cases htold
        rfl
    · exact fun h => by rw [h.verdict, told]
  · have hsafe := verdict_safe (frames chunks.flatten).1 (frames chunks.flatten).2
    rw [hread]
    generalize Quic.verdict (frames chunks.flatten) = said at hsafe ⊢
    obtain (_ | problem) | (_ | status') := said
    · exact absurd rfl hsafe
    · exact fun h => by cases h
    · cases ending <;> exact fun h => by cases h
    · exact fun h => by cases h
  · rw [hread, hread, hsame]

end

end Quic

end Masqr.Transport

/-
# NetFT.Discovery — the body of the configuration response (`discovery.cpp`).

libcurl hands the body to `append_response` in chunks.  A `size_t` is a `UInt64`, a chunk is what the
pointer of a call points to, and whether `body.append` finds memory is part of the call.

* `ResponseBuffer.room_toNat`, `WriteCall.byteCount_toNat`: the two operations on `size_t` do not wrap.
* `appendResponse_of_fits`, `appendResponse_of_not_fits`: a call is decided by the product and the room as
  natural numbers.
* **`responseBody_faithful`**: what the buffer is after any calls.
-/
import NetFT.Types
import Mathlib.Tactic.Ring

namespace NetFT.Discovery

set_option autoImplicit false

/-! ## `append_response` -/

def kMaximumResponseBytes : UInt64 := 65536

structure ResponseBuffer where
  body : List UInt8 := []
  tooLarge : Bool := false
  writeFailed : Bool := false
  deriving DecidableEq, Repr

/-- The arguments of a call, and whether there is memory for the chunk. -/
structure WriteCall where
  data : ℕ → UInt8
  size : UInt64
  count : UInt64
  stored : Bool := true

namespace WriteCall

/-- `size != 0 && count > max / size`. -/
def overflows (call : WriteCall) : Bool :=
  call.size != 0 && decide ((0xffffffffffffffff : UInt64) / call.size < call.count)

/-- `size * count`. -/
def byteCount (call : WriteCall) : UInt64 := call.size * call.count

/-- The first `n` bytes of the chunk. -/
def bytes (call : WriteCall) (n : ℕ) : List UInt8 := (List.range n).map call.data

/-- What libcurl wants stored. -/
def requested (call : WriteCall) : ℕ := call.size.toNat * call.count.toNat

end WriteCall

/-- `kMaximumResponseBytes - body.size()`. -/
def ResponseBuffer.room (response : ResponseBuffer) : UInt64 :=
  kMaximumResponseBytes - UInt64.ofNat response.body.length

/-- The buffer after a call, and what the call returns. -/
def appendResponse (response : ResponseBuffer) (call : WriteCall) : ResponseBuffer × UInt64 :=
  if call.overflows then ({ response with tooLarge := true }, 0)
  else if response.room < call.byteCount then ({ response with tooLarge := true }, 0)
  else if call.stored then
    ({ response with body := response.body ++ call.bytes call.byteCount.toNat }, call.byteCount)
  else ({ response with writeFailed := true }, 0)

/-- The calls of one transfer. -/
def responseAfter (calls : List WriteCall) : ResponseBuffer :=
  calls.foldl (fun response call => (appendResponse response call).1) {}

/-- `discover_sensor` once the transfer is over: `transfer` is the result of the transfer, and of
reading the HTTP status; `parse` is `parse_sensor_configuration`. -/
def finishDiscovery {α : Type} (parse : List UInt8 → Except String α) (response : ResponseBuffer)
    (transfer : Except String (Option ℤ)) : Except String α :=
  if response.tooLarge then .error "sensor configuration response exceeds 65536 bytes"
  else if response.writeFailed then .error "failed to store sensor configuration response"
  else
    match transfer with
    | .error what => .error ("sensor configuration request failed: " ++ what)
    | .ok none => .error "failed to inspect sensor configuration response"
    | .ok (some status) =>
      if status ≠ 200 then .error s!"sensor configuration request returned HTTP {status}"
      else parse response.body

/-! ## Arithmetic on `size_t` -/

/-- A product that passes the test does not wrap. -/
theorem WriteCall.byteCount_toNat {call : WriteCall} (h : call.overflows = false) :
    call.byteCount.toNat = call.requested := by
  have hlt : call.requested < 2 ^ 64 := by
    by_cases hzero : call.size = 0
    · simp [requested, hzero]
    · have hpos : 0 < call.size.toNat := Nat.pos_of_ne_zero fun h => hzero (UInt64.toNat_inj.mp h)
      have hle : call.count ≤ (0xffffffffffffffff : UInt64) / call.size := by
        simpa [overflows, hzero] using h
      rw [UInt64.le_iff_toNat_le, UInt64.toNat_div, Nat.le_div_iff_mul_le hpos] at hle
      rw [requested, Nat.mul_comm]
      have hmax : (0xffffffffffffffff : UInt64).toNat = 2 ^ 64 - 1 := rfl
      omega
  rw [byteCount, UInt64.toNat_mul, ← requested, Nat.mod_eq_of_lt hlt]

/-- A product that does not pass is larger than any `size_t`. -/
theorem WriteCall.le_requested {call : WriteCall} (h : call.overflows = true) :
    2 ^ 64 ≤ call.requested := by
  obtain ⟨hzero, hlt⟩ : call.size ≠ 0 ∧ (0xffffffffffffffff : UInt64) / call.size < call.count := by
    simpa [overflows] using h
  have hpos : 0 < call.size.toNat := Nat.pos_of_ne_zero fun h => hzero (UInt64.toNat_inj.mp h)
  rw [UInt64.lt_iff_toNat_lt, UInt64.toNat_div, Nat.div_lt_iff_lt_mul hpos] at hlt
  have hmax : (0xffffffffffffffff : UInt64).toNat = 2 ^ 64 - 1 := rfl
  rw [requested, Nat.mul_comm]
  omega

/-- The bytes that are left. -/
def ResponseBuffer.left (response : ResponseBuffer) : ℕ := 65536 - response.body.length

theorem ResponseBuffer.room_toNat {response : ResponseBuffer} (h : response.body.length ≤ 65536) :
    response.room.toNat = response.left := by
  have hlength : (UInt64.ofNat response.body.length).toNat = response.body.length :=
    UInt64.toNat_ofNat_of_lt' (h.trans_lt (by decide))
  have hle : UInt64.ofNat response.body.length ≤ kMaximumResponseBytes := by
    rw [UInt64.le_iff_toNat_le, hlength]
    exact h
  rw [room, UInt64.toNat_sub_of_le _ _ hle, hlength]
  rfl

/-! ## One call -/

/-- The chunk fits. -/
def WriteCall.Fits (call : WriteCall) (response : ResponseBuffer) : Prop :=
  call.requested ≤ response.left

theorem appendResponse_of_fits {response : ResponseBuffer} {call : WriteCall}
    (h : response.body.length ≤ 65536) (hfits : call.Fits response) :
    appendResponse response call =
      if call.stored then
        ({ response with body := response.body ++ call.bytes call.requested }, call.byteCount)
      else ({ response with writeFailed := true }, 0) := by
  have hsmall : call.requested ≤ 65536 := hfits.trans (Nat.sub_le _ _)
  -- what fits in the room is far below the range of `size_t`
  have hoverflows : call.overflows = false := by
    by_contra htrue
    have hle := WriteCall.le_requested (Bool.eq_true_of_not_eq_false htrue)
    omega
  have hroom : ¬ response.room < call.byteCount := by
    rw [UInt64.lt_iff_toNat_lt, response.room_toNat h, WriteCall.byteCount_toNat hoverflows]
    exact Nat.not_lt.mpr hfits
  rw [appendResponse, if_neg (by simp [hoverflows]), if_neg hroom,
    WriteCall.byteCount_toNat hoverflows]

theorem appendResponse_of_not_fits {response : ResponseBuffer} {call : WriteCall}
    (h : response.body.length ≤ 65536) (hfits : ¬ call.Fits response) :
    appendResponse response call = ({ response with tooLarge := true }, 0) := by
  unfold appendResponse
  split_ifs with hoverflows hroom
  · rfl
  · rfl
  all_goals
    rw [Bool.not_eq_true] at hoverflows
    rw [UInt64.lt_iff_toNat_lt, response.room_toNat h, WriteCall.byteCount_toNat hoverflows] at hroom
    exact absurd (Nat.not_lt.mp hroom) hfits

/-- The bytes of a chunk. -/
def WriteCall.chunk (call : WriteCall) : List UInt8 := call.bytes call.requested

@[simp] theorem WriteCall.length_chunk (call : WriteCall) : call.chunk.length = call.requested := by
  simp [chunk, bytes]

/-- The call returns its byte count. -/
def WriteCall.accepted (call : WriteCall) (response : ResponseBuffer) : Bool :=
  (appendResponse response call).2.toNat == call.requested

/-- An accepted call stores its chunk, and another one stores nothing. -/
theorem appendResponse_body {response : ResponseBuffer} (h : response.body.length ≤ 65536)
    (call : WriteCall) : (appendResponse response call).1.body =
      response.body ++ if call.accepted response then call.chunk else [] := by
  unfold WriteCall.accepted
  by_cases hfits : call.Fits response
  · rw [appendResponse_of_fits h hfits]
    cases hstored : call.stored with
    | true =>
      have hcount : call.byteCount.toNat = call.requested := by
        refine WriteCall.byteCount_toNat ?_
        by_contra htrue
        have hle := WriteCall.le_requested (Bool.eq_true_of_not_eq_false htrue)
        have hsmall : call.requested ≤ 65536 := hfits.trans (Nat.sub_le _ _)
        omega
      simp [hcount, WriteCall.chunk]
    | false =>
      -- a call for no bytes returns its byte count even when it fails
      by_cases hzero : call.requested = 0
      · simp [hzero, WriteCall.chunk, WriteCall.bytes]
      · simp [Ne.symm hzero]
  · -- what does not fit has bytes, and the zero that is returned is not their number
    have hpos : (0 : UInt64).toNat ≠ call.requested := fun heq => hfits (by simp [WriteCall.Fits, ← heq])
    rw [appendResponse_of_not_fits h hfits, if_neg (by simpa using hpos), List.append_nil]

theorem appendResponse_length {response : ResponseBuffer} (h : response.body.length ≤ 65536)
    (call : WriteCall) : (appendResponse response call).1.body.length ≤ 65536 := by
  by_cases hfits : call.Fits response
  · have hroom : response.body.length + call.requested ≤ 65536 := by
      unfold WriteCall.Fits ResponseBuffer.left at hfits
      omega
    rw [appendResponse_body h, List.length_append]
    split_ifs
    · rwa [WriteCall.length_chunk]
    · simpa using h
  · rw [appendResponse_of_not_fits h hfits]
    exact h

theorem appendResponse_tooLarge {response : ResponseBuffer} (h : response.body.length ≤ 65536)
    (call : WriteCall) : (appendResponse response call).1.tooLarge = true ↔
      response.tooLarge = true ∨ response.left < call.requested := by
  by_cases hfits : call.Fits response
  · have hnot : ¬ response.left < call.requested := Nat.not_lt.mpr hfits
    rw [appendResponse_of_fits h hfits]
    split_ifs <;> simp [hnot]
  · rw [appendResponse_of_not_fits h hfits]
    simp [Nat.lt_of_not_le hfits]

/-- Without a flag the chunk was stored. -/
theorem appendResponse_unflagged {response : ResponseBuffer} (h : response.body.length ≤ 65536)
    {call : WriteCall} (hlarge : (appendResponse response call).1.tooLarge = false)
    (hfailed : (appendResponse response call).1.writeFailed = false) :
    response.tooLarge = false ∧ response.writeFailed = false ∧
      (appendResponse response call).1.body = response.body ++ call.chunk := by
  by_cases hfits : call.Fits response
  · rw [appendResponse_of_fits h hfits] at hlarge hfailed ⊢
    cases hstored : call.stored <;> simp_all [WriteCall.chunk]
  · rw [appendResponse_of_not_fits h hfits] at hlarge
    cases hlarge

/-! ## Every sequence of calls -/

section

variable {calls : List WriteCall} {call : WriteCall}

theorem responseAfter_concat : responseAfter (calls ++ [call]) =
    (appendResponse (responseAfter calls) call).1 := by
  simp [responseAfter]

theorem responseAfter_length (calls : List WriteCall) : (responseAfter calls).body.length ≤ 65536 := by
  induction calls using List.reverseRecOn with
  | nil => exact Nat.zero_le _
  | append_singleton calls call ih =>
    rw [responseAfter_concat]
    exact appendResponse_length ih call

/-- The calls that return their byte count, from a given buffer. -/
def acceptedCalls (response : ResponseBuffer) : List WriteCall → List WriteCall
  | [] => []
  | call :: calls =>
    (if call.accepted response then [call] else []) ++
      acceptedCalls (appendResponse response call).1 calls

theorem acceptedCalls_concat (response : ResponseBuffer) (calls : List WriteCall) (call : WriteCall) :
    acceptedCalls response (calls ++ [call]) = acceptedCalls response calls ++
      if call.accepted (calls.foldl (fun response call => (appendResponse response call).1) response)
      then [call] else [] := by
  induction calls generalizing response with
  | nil => rw [List.nil_append, acceptedCalls, acceptedCalls, acceptedCalls, List.append_nil]; rfl
  | cons c calls ih =>
    rw [List.cons_append, acceptedCalls, acceptedCalls, ih, List.append_assoc, List.foldl_cons]

end

/-- What the buffer is after any calls. -/
structure Faithful (calls : List WriteCall) : Prop where
  body : (responseAfter calls).body = (acceptedCalls {} calls).flatMap WriteCall.chunk
  bounded : (responseAfter calls).body.length ≤ 65536
  /-- The subtraction does not wrap, and neither does a product that is computed. -/
  arithmetic : ∀ before call, before ++ [call] <+: calls →
    (responseAfter before).room.toNat + (responseAfter before).body.length = 65536 ∧
      (call.overflows = false → call.byteCount.toNat = call.requested)
  tooLarge : (responseAfter calls).tooLarge = true ↔
    ∃ before call, before ++ [call] <+: calls ∧
      65536 - (responseAfter before).body.length < call.requested
  complete : (responseAfter calls).tooLarge = false → (responseAfter calls).writeFailed = false →
    (responseAfter calls).body = calls.flatMap WriteCall.chunk
  /-- A configuration is parsed from the whole body. -/
  parsed : ∀ {α : Type} (parse : List UInt8 → Except String α) (transfer : Except String (Option ℤ))
    (result : α), finishDiscovery parse (responseAfter calls) transfer = .ok result →
      parse (calls.flatMap WriteCall.chunk) = .ok result

theorem responseAfter_body (calls : List WriteCall) :
    (responseAfter calls).body = (acceptedCalls {} calls).flatMap WriteCall.chunk := by
  induction calls using List.reverseRecOn with
  | nil => rfl
  | append_singleton calls call ih =>
    rw [responseAfter_concat, appendResponse_body (responseAfter_length calls), acceptedCalls_concat,
      List.flatMap_append, ← ih]
    change _ = _ ++ List.flatMap _ (if call.accepted (responseAfter calls) then [call] else [])
    split_ifs <;> simp

theorem responseAfter_tooLarge (calls : List WriteCall) :
    (responseAfter calls).tooLarge = true ↔
      ∃ before call, before ++ [call] <+: calls ∧
        65536 - (responseAfter before).body.length < call.requested := by
  induction calls using List.reverseRecOn with
  | nil =>
    refine ⟨fun h => (by cases h), fun ⟨before, call, hprefix, _⟩ => ?_⟩
    simp at hprefix
  | append_singleton calls call ih =>
    rw [responseAfter_concat, appendResponse_tooLarge (responseAfter_length calls), ih]
    constructor
    · rintro (⟨before, c, hprefix, hlt⟩ | hlt)
      · exact ⟨before, c, hprefix.trans (List.prefix_append _ _), hlt⟩
      · exact ⟨calls, call, List.prefix_refl _, hlt⟩
    · rintro ⟨before, c, hprefix, hlt⟩
      -- the call that did not fit is the last one, or an earlier one
      rcases List.prefix_concat_iff.mp hprefix with hwhole | hprefix
      · obtain ⟨rfl, hlast⟩ := List.append_inj' hwhole rfl
        obtain rfl : c = call := List.singleton_inj.mp hlast
        exact .inr hlt
      · exact .inl ⟨before, c, hprefix, hlt⟩

theorem responseAfter_complete (calls : List WriteCall)
    (hlarge : (responseAfter calls).tooLarge = false)
    (hfailed : (responseAfter calls).writeFailed = false) :
    (responseAfter calls).body = calls.flatMap WriteCall.chunk := by
  induction calls using List.reverseRecOn with
  | nil => rfl
  | append_singleton calls call ih =>
    rw [responseAfter_concat] at hlarge hfailed
    obtain ⟨hlarge', hfailed', hbody⟩ :=
      appendResponse_unflagged (responseAfter_length calls) hlarge hfailed
    rw [responseAfter_concat, hbody, ih hlarge' hfailed']
    simp

/-- A response is parsed only if no flag is set. -/
theorem finishDiscovery_ok {α : Type} {parse : List UInt8 → Except String α}
    {response : ResponseBuffer} {transfer : Except String (Option ℤ)} {result : α}
    (h : finishDiscovery parse response transfer = .ok result) :
    response.tooLarge = false ∧ response.writeFailed = false ∧ parse response.body = .ok result := by
  unfold finishDiscovery at h
  split_ifs at h with hlarge hfailed
  split at h
  · cases h
  · cases h
  · split_ifs at h
    exact ⟨Bool.eq_false_of_not_eq_true hlarge, Bool.eq_false_of_not_eq_true hfailed, h⟩

theorem responseBody_faithful (calls : List WriteCall) : Faithful calls where
  body := responseAfter_body calls
  bounded := responseAfter_length calls
  arithmetic before call _ := by
    have hlength := responseAfter_length before
    refine ⟨?_, WriteCall.byteCount_toNat⟩
    rw [ResponseBuffer.room_toNat hlength]
    exact Nat.sub_add_cancel hlength
  tooLarge := responseAfter_tooLarge calls
  complete := responseAfter_complete calls
  parsed parse transfer result h := by
    obtain ⟨hlarge, hfailed, hparse⟩ := finishDiscovery_ok h
    rwa [responseAfter_complete calls hlarge hfailed] at hparse

end NetFT.Discovery

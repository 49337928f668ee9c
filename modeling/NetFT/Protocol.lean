/-
# NetFT.Protocol — RDT requests and records (`detail/protocol.cpp`).

Requests are 8 bytes, records exactly 36; every field is big-endian.  A byte buffer is a list, a
pointer into it is the list that starts there, and a signed 32-bit field is the integer it denotes.
-/
import Mathlib.Algebra.Group.Int.Defs
import Mathlib.Tactic.Common

namespace NetFT

/-- `enum class Command : std::uint16_t`. -/
inductive Command where
  | StopStreaming | StartRealtime | StartBuffered | ResetConditionLatch | SetSoftwareBias
  deriving DecidableEq, Repr

/-- The code of a command on the wire. -/
def Command.code : Command → UInt16
  | .StopStreaming => 0x0000
  | .StartRealtime => 0x0002
  | .StartBuffered => 0x0003
  | .ResetConditionLatch => 0x0041
  | .SetSoftwareBias => 0x0042

/-- The nine words of a record. -/
structure RawRecord where
  rdtSequence : UInt32 := 0
  ftSequence : UInt32 := 0
  status : UInt32 := 0
  fx : Int := 0
  fy : Int := 0
  fz : Int := 0
  tx : Int := 0
  ty : Int := 0
  tz : Int := 0
  deriving DecidableEq, Repr

/-- A big-endian word at the head of the bytes. -/
def readU32 : List UInt8 → UInt32
  | b0 :: b1 :: b2 :: b3 :: _ =>
    (b0.toUInt32 <<< 24) ||| (b1.toUInt32 <<< 16) ||| (b2.toUInt32 <<< 8) ||| b3.toUInt32
  | _ => 0

/-- The two's-complement reading of a word, without leaving the 32-bit signed range. -/
def readI32 (data : List UInt8) : Int :=
  let value := readU32 data
  if value ≤ 0x7fffffff then (value.toNat : Int) else -((~~~value).toNat : Int) - 1

/-- The record a sensor sends when it counts with the unbounded numbers `rdt` and `ft`. -/
def RawRecord.numbered (rdt ft : ℕ) (status : UInt32) (force torque : Int × Int × Int) : RawRecord :=
  { rdtSequence := UInt32.ofNat rdt
    ftSequence := UInt32.ofNat ft
    status
    fx := force.1
    fy := force.2.1
    fz := force.2.2
    tx := torque.1
    ty := torque.2.1
    tz := torque.2.2 }

/-- A request of eight bytes: the header, the command and the count. -/
def encodeRequest (command : Command) (count : UInt32) : List UInt8 :=
  let value := command.code
  [0x12, 0x34, (value >>> 8).toUInt8, value.toUInt8,
    (count >>> 24).toUInt8, (count >>> 16).toUInt8, (count >>> 8).toUInt8, count.toUInt8]

/-- A record of 36 bytes; any other size is an error. -/
def decodeRecord (data : List UInt8) : Except String RawRecord :=
  if data.length ≠ 36 then
    .error s!"RDT record must be exactly 36 bytes, received {data.length}"
  else
    .ok
      { rdtSequence := readU32 data
        ftSequence := readU32 (data.drop 4)
        status := readU32 (data.drop 8)
        fx := readI32 (data.drop 12)
        fy := readI32 (data.drop 16)
        fz := readI32 (data.drop 20)
        tx := readI32 (data.drop 24)
        ty := readI32 (data.drop 28)
        tz := readI32 (data.drop 32) }

/-! ## The decoder's domain and range -/

/-- The decoder refuses exactly the datagrams that are not 36 bytes long. -/
theorem decodeRecord_isOk_iff (data : List UInt8) :
    (decodeRecord data).isOk = true ↔ data.length = 36 := by
  unfold decodeRecord
  split_ifs with h
  · simp [h, Except.isOk, Except.toBool]
  · simpa [Except.isOk, Except.toBool] using h

/-- What `readI32` returns fits a signed word. -/
theorem readI32_bounds (data : List UInt8) : -2 ^ 31 ≤ readI32 data ∧ readI32 data < 2 ^ 31 := by
  have hlt := (readU32 data).toNat_lt
  have hnot : (~~~readU32 data).toNat = 2 ^ 32 - 1 - (readU32 data).toNat := by
    simp [UInt32.toNat_not]
  simp only [readI32]
  split_ifs with h
  · have hle := UInt32.le_iff_toNat_le.mp h
    simp only [UInt32.reduceToNat] at hle
    omega
  · have hge := UInt32.le_iff_toNat_le.not.mp h
    simp only [UInt32.reduceToNat] at hge
    omega

/-- Every signed field of a decoded record is a 32-bit integer. -/
def RawRecord.InRange (record : RawRecord) : Prop :=
  ∀ v ∈ [record.fx, record.fy, record.fz, record.tx, record.ty, record.tz],
    -2 ^ 31 ≤ v ∧ v < 2 ^ 31

/-- The six values of a decoded record fit a signed word. -/
theorem decodeRecord_inRange {data : List UInt8} {record : RawRecord}
    (h : decodeRecord data = .ok record) : record.InRange := by
  unfold decodeRecord at h
  split_ifs at h
  cases h
  simp only [RawRecord.InRange, List.mem_cons, List.not_mem_nil, or_false]
  rintro v (rfl | rfl | rfl | rfl | rfl | rfl) <;> exact readI32_bounds _

end NetFT

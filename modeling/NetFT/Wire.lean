/-
# NetFT.Wire — the RDT wire format, from both ends.

The sensor's side of the format is the one of the fake sensors: `makeRecord` (C++) and
`RawRecord.pack` (Python, `>IIIiiiiii`) write a record, `unpackRequest` (`>HHI`) reads a request.

* `decodeRecord_pack` and `pack_of_decodeRecord`: packing and decoding are inverse.
* `readI32Checked_eq`: the two's-complement conversion stays in the 32-bit signed range.
* **`wire_roundTrip`** puts the two directions together, for records and requests.
-/
import NetFT.Library.BigEndian
import NetFT.Protocol
import Mathlib.Tactic.NormNum

namespace NetFT

set_option autoImplicit false

open Library.BigEndian

/-! ## The sensor's side -/

/-- `put_u32`. -/
def putU32 (bytes : List UInt8) (offset : ℕ) (value : UInt32) : List UInt8 :=
  (List.range 4).foldl
    (fun bytes index => bytes.set (offset + index) (value >>> UInt32.ofNat (24 - 8 * index)).toUInt8) bytes

/-- `make_record`; the cast of an axis is `static_cast<std::uint32_t>`. -/
def makeRecord (rdtSequence status ftSequence : UInt32) (axes : List Int) : List UInt8 :=
  let data := List.replicate 36 0
  let data := putU32 data 0 rdtSequence
  let data := putU32 data 4 ftSequence
  let data := putU32 data 8 status
  axes.zipIdx.foldl
    (fun data (value, index) => putU32 data (12 + 4 * index) (UInt32.ofInt value)) data

def RawRecord.axes (record : RawRecord) : List Int :=
  [record.fx, record.fy, record.fz, record.tx, record.ty, record.tz]

/-- `RECORD_STRUCT.pack`. -/
def RawRecord.pack (record : RawRecord) : List UInt8 :=
  ([record.rdtSequence, record.ftSequence, record.status] ++ record.axes.map UInt32.ofInt).flatMap
    fun word => toBytes 4 word.toNat

/-- `REQUEST_STRUCT.unpack`, which takes 8 bytes. -/
def unpackRequest (data : List UInt8) : Option (ℕ × ℕ × ℕ) :=
  if data.length = 8 then
    some (ofBytes (data.take 2), ofBytes ((data.drop 2).take 2), ofBytes (data.drop 4))
  else none

/-- `encode_request` of a command given by its word. -/
def encodeRequestWord (value : UInt16) (count : UInt32) : List UInt8 :=
  [0x12, 0x34, (value >>> 8).toUInt8, value.toUInt8,
    (count >>> 24).toUInt8, (count >>> 16).toUInt8, (count >>> 8).toUInt8, count.toUInt8]

/-! ## Signed arithmetic that may not overflow -/

/-- A value of type `int32_t`, if there is one. -/
def checkedI32 (value : Int) : Option Int :=
  if -2 ^ 31 ≤ value ∧ value < 2 ^ 31 then some value else none

/-- `read_i32` with every signed intermediate value checked: the casts, the negation and the
subtraction. -/
def readI32Checked (data : List UInt8) : Option Int :=
  let value := readU32 data
  if value ≤ 0x7fffffff then checkedI32 value.toNat
  else do
    let complement ← checkedI32 (~~~value).toNat
    let negated ← checkedI32 (-complement)
    checkedI32 (negated - 1)

theorem checkedI32_eq_some {value : Int} (h : -2 ^ 31 ≤ value ∧ value < 2 ^ 31) :
    checkedI32 value = some value := if_pos h

/-! ## Words -/

theorem toNat_complement (value : UInt32) : (~~~value).toNat = 2 ^ 32 - 1 - value.toNat := by
  simp [UInt32.toNat_not]

theorem le_maxI32_iff (value : UInt32) : value ≤ 0x7fffffff ↔ value.toNat < 2 ^ 31 := by
  rw [UInt32.le_iff_toNat_le]
  simp only [UInt32.reduceToNat]
  omega

/-- **`read_i32` never leaves the 32-bit signed range.** -/
theorem readI32Checked_eq (data : List UInt8) : readI32Checked data = some (readI32 data) := by
  have hlt := (readU32 data).toNat_lt
  have hnot := toNat_complement (readU32 data)
  simp only [readI32Checked, readI32, le_maxI32_iff]
  split_ifs with h
  · exact checkedI32_eq_some (by omega)
  · have hcomplement : checkedI32 (~~~readU32 data).toNat = some ((~~~readU32 data).toNat : Int) :=
      checkedI32_eq_some (by omega)
    have hnegated : checkedI32 (-((~~~readU32 data).toNat : Int)) = some (-((~~~readU32 data).toNat : Int)) :=
      checkedI32_eq_some (by omega)
    simp only [hcomplement, hnegated, Option.bind_eq_bind, Option.bind_some]
    exact checkedI32_eq_some (by omega)

/-- The signed reading of a word is the word, modulo 2^32. -/
theorem readI32_eq (data : List UInt8) :
    readI32 data =
      if (readU32 data).toNat < 2 ^ 31 then ((readU32 data).toNat : Int)
      else ((readU32 data).toNat : Int) - 2 ^ 32 := by
  have hlt := (readU32 data).toNat_lt
  have hnot := toNat_complement (readU32 data)
  simp only [readI32, le_maxI32_iff]
  split_ifs
  · rfl
  · omega

theorem toNat_ofInt (value : Int) : ((UInt32.ofInt value).toNat : Int) = value % 2 ^ 32 := by
  simp only [UInt32.ofInt, UInt32.toNat_ofNat']
  omega

theorem ofInt_readI32 (data : List UInt8) : UInt32.ofInt (readI32 data) = readU32 data := by
  have hlt := (readU32 data).toNat_lt
  apply UInt32.toNat_inj.mp
  have hmod := toNat_ofInt (readI32 data)
  rw [readI32_eq] at hmod ⊢
  split_ifs at hmod ⊢ <;> omega

theorem readI32_of_readU32 {data : List UInt8} {value : Int}
    (hrange : -2 ^ 31 ≤ value ∧ value < 2 ^ 31) (h : readU32 data = UInt32.ofInt value) :
    readI32 data = value := by
  have hmod := toNat_ofInt value
  rw [readI32_eq, h]
  split_ifs <;> omega

/-- The bytes of a word. -/
theorem toBytes_word (word : UInt32) :
    toBytes 4 word.toNat =
      [(word >>> 24).toUInt8, (word >>> 16).toUInt8, (word >>> 8).toUInt8, word.toUInt8] := by
  simp only [toBytes, List.cons.injEq, and_true]
  refine ⟨?_, ?_, ?_, ?_⟩ <;> apply UInt8.toNat_inj.mp <;>
    simp [UInt8.toNat_ofNat', UInt32.toNat_shiftRight, Nat.shiftRight_eq_div_pow]

/-- `read_u32` reads the first four bytes as a big-endian number. -/
theorem toNat_readU32 {data : List UInt8} (h : 4 ≤ data.length) :
    (readU32 data).toNat = ofBytes (data.take 4) := by
  match data, h with
  | b0 :: b1 :: b2 :: b3 :: rest, _ =>
    have h0 := b0.toNat_lt
    have h1 := b1.toNat_lt
    have h2 := b2.toNat_lt
    have h3 := b3.toNat_lt
    have hlow : b2.toNat <<< 8 ||| b3.toNat = b2.toNat <<< 8 + b3.toNat :=
      (Nat.shiftLeft_add_eq_or_of_lt h3 b2.toNat).symm
    have hmiddle : b1.toNat <<< 16 ||| (b2.toNat <<< 8 + b3.toNat) =
        b1.toNat <<< 16 + (b2.toNat <<< 8 + b3.toNat) :=
      (Nat.shiftLeft_add_eq_or_of_lt (by rw [Nat.shiftLeft_eq]; omega) b1.toNat).symm
    have hhigh : b0.toNat <<< 24 ||| (b1.toNat <<< 16 + (b2.toNat <<< 8 + b3.toNat)) =
        b0.toNat <<< 24 + (b1.toNat <<< 16 + (b2.toNat <<< 8 + b3.toNat)) :=
      (Nat.shiftLeft_add_eq_or_of_lt (by simp only [Nat.shiftLeft_eq]; omega) b0.toNat).symm
    have hword : (readU32 (b0 :: b1 :: b2 :: b3 :: rest)).toNat =
        b0.toNat <<< 24 ||| (b1.toNat <<< 16 ||| (b2.toNat <<< 8 ||| b3.toNat)) := by
      have hshift : ∀ {a k : ℕ}, a < 2 ^ 8 → k ≤ 24 → a <<< k % 2 ^ 32 = a <<< k := fun ha hk =>
        Nat.mod_eq_of_lt (by
          rw [Nat.shiftLeft_eq]
          calc _ < 2 ^ 8 * 2 ^ _ := Nat.mul_lt_mul_of_pos_right ha (Nat.two_pow_pos _)
            _ ≤ 2 ^ 8 * 2 ^ 24 := Nat.mul_le_mul_left _ (Nat.pow_le_pow_right (by omega) hk)
            _ = 2 ^ 32 := by norm_num)
      simp only [readU32, UInt32.toNat_or, UInt32.toNat_shiftLeft, UInt8.toNat_toUInt32,
        UInt32.reduceToNat, Nat.reduceMod, Nat.or_assoc]
      rw [hshift h0 (by omega), hshift h1 (by omega), hshift h2 (by omega)]
    rw [hword, hlow, hmiddle, hhigh]
    simp only [Nat.shiftLeft_eq, List.take, ofBytes, List.length_cons, List.length_nil]
    omega

theorem readU32_toBytes (word : UInt32) (rest : List UInt8) :
    readU32 (toBytes 4 word.toNat ++ rest) = word := by
  apply UInt32.toNat_inj.mp
  rw [toNat_readU32 (by simp), List.take_left' (by simp), ofBytes_toBytes]
  exact Nat.mod_eq_of_lt word.toNat_lt

theorem toBytes_readU32 {data : List UInt8} (h : 4 ≤ data.length) :
    toBytes 4 (readU32 data).toNat ++ data.drop 4 = data := by
  have hlength : (data.take 4).length = 4 := by simp [h]
  rw [toNat_readU32 h]
  have hwrite := toBytes_ofBytes (data.take 4)
  rw [hlength] at hwrite
  rw [hwrite, List.take_append_drop]

/-! ## Records -/

theorem putU32_append (written : List UInt8) (word : UInt32) (left : ℕ) {offset : ℕ}
    (hoffset : offset = written.length) :
    putU32 (written ++ List.replicate (left + 4) 0) offset word =
      (written ++ toBytes 4 word.toNat) ++ List.replicate left 0 := by
  subst hoffset
  have hset : ∀ (bytes : List UInt8) (index : ℕ) (b : UInt8),
      (written ++ bytes).set (written.length + index) b = written ++ bytes.set index b := by
    intro bytes index b
    rw [List.set_append_right _ _ (by omega), Nat.add_sub_cancel_left]
  have hrange : List.range 4 = [0, 1, 2, 3] := rfl
  simp only [putU32, hrange, List.foldl, hset, toBytes_word, List.append_assoc]
  rfl

/-- The fake sensors agree on the format. -/
theorem makeRecord_eq_pack (record : RawRecord) :
    makeRecord record.rdtSequence record.status record.ftSequence record.axes = record.pack := by
  have h0 := putU32_append []
  simp only [makeRecord, RawRecord.axes, RawRecord.pack, List.zipIdx_cons, List.zipIdx_nil, List.foldl]
  rw [show (List.replicate 36 (0 : UInt8)) = [] ++ List.replicate (32 + 4) 0 from rfl,
    putU32_append _ _ _ (by rfl), putU32_append _ _ 28 (by simp), putU32_append _ _ 24 (by simp),
    putU32_append _ _ 20 (by simp), putU32_append _ _ 16 (by simp), putU32_append _ _ 12 (by simp),
    putU32_append _ _ 8 (by simp), putU32_append _ _ 4 (by simp), putU32_append _ _ 0 (by simp)]
  simp

/-- Decoding gives a packed record back. -/
theorem decodeRecord_pack {record : RawRecord} (h : record.InRange) :
    decodeRecord record.pack = .ok record := by
  have hlength : record.pack.length = 36 := by simp [RawRecord.pack, RawRecord.axes]
  have haxis : ∀ v ∈ record.axes, ∀ rest,
      readI32 (toBytes 4 (UInt32.ofInt v).toNat ++ rest) = v := fun v hv rest =>
    readI32_of_readU32 (h v hv) (readU32_toBytes _ rest)
  have hdrop : ∀ (k : ℕ) (word : UInt32) (rest : List UInt8),
      (toBytes 4 word.toNat ++ rest).drop (k + 4) = rest.drop k := fun k word rest => by
    rw [Nat.add_comm, List.drop_append, List.drop_of_length_le (by simp)]
    simp
  rw [decodeRecord, if_neg (not_not.mpr hlength)]
  simp only [RawRecord.axes, List.mem_cons, List.not_mem_nil, or_false, forall_eq_or_imp,
    forall_eq] at haxis
  simp only [RawRecord.pack, RawRecord.axes, List.map, List.cons_append, List.nil_append,
    List.flatMap_cons, hdrop 0, hdrop 4, hdrop 8, hdrop 12, hdrop 16, hdrop 20, hdrop 24, hdrop 28,
    List.drop_zero, readU32_toBytes, haxis]

/-- Packing a decoded record gives its bytes back. -/
theorem pack_of_decodeRecord {data : List UInt8} {record : RawRecord}
    (h : decodeRecord data = .ok record) : record.pack = data := by
  unfold decodeRecord at h
  split_ifs at h with hlength
  cases h
  have hword : ∀ k rest, k + 4 ≤ 36 → rest = data.drop (k + 4) →
      toBytes 4 (readU32 (data.drop k)).toNat ++ rest = data.drop k := by
    rintro k _ hk rfl
    rw [← List.drop_drop]
    exact toBytes_readU32 (by rw [List.length_drop]; omega)
  have hend : ([] : List UInt8) = data.drop 36 := (List.drop_of_length_le (by omega)).symm
  simp only [RawRecord.pack, RawRecord.axes, List.map, ofInt_readI32, List.cons_append,
    List.nil_append, List.flatMap_cons, List.flatMap_nil]
  refine hword 0 _ (by omega) (hword 4 _ (by omega) (hword 8 _ (by omega) ?_))
  refine hword 12 _ (by omega) (hword 16 _ (by omega) (hword 20 _ (by omega) ?_))
  exact hword 24 _ (by omega) (hword 28 _ (by omega) (hword 32 _ (by omega) hend))

/-! ## Requests -/

theorem unpackRequest_encodeRequestWord (value : UInt16) (count : UInt32) :
    unpackRequest (encodeRequestWord value count) = some (0x1234, value.toNat, count.toNat) := by
  have hvalue := value.toNat_lt
  have hcount := count.toNat_lt
  have hword : ofBytes [(value >>> 8).toUInt8, value.toUInt8] = value.toNat := by
    simp [ofBytes, UInt16.toNat_shiftRight, Nat.shiftRight_eq_div_pow]
    omega
  have hcount : ofBytes [(count >>> 24).toUInt8, (count >>> 16).toUInt8, (count >>> 8).toUInt8,
      count.toUInt8] = count.toNat := by
    rw [← toBytes_word, ofBytes_toBytes]
    exact Nat.mod_eq_of_lt hcount
  simp only [unpackRequest, encodeRequestWord, List.length_cons, List.length_nil, List.take,
    List.drop, if_true, hword, hcount]
  rfl

/-! ## The wire format -/

/-- **The wire format round-trips**: records in both directions, with every buffer of another length
rejected and no signed overflow in `read_i32`, and requests as the sensor unpacks them. -/
theorem wire_roundTrip :
    (∀ record : RawRecord, record.InRange →
      makeRecord record.rdtSequence record.status record.ftSequence record.axes = record.pack ∧
        decodeRecord record.pack = .ok record) ∧
    (∀ data : List UInt8, data.length = 36 →
      ∃ record, decodeRecord data = .ok record ∧ record.InRange ∧ record.pack = data) ∧
    (∀ data : List UInt8, data.length ≠ 36 → ∃ what, decodeRecord data = .error what) ∧
    (∀ data : List UInt8, readI32Checked data = some (readI32 data)) ∧
    (∀ (value : UInt16) (count : UInt32),
      unpackRequest (encodeRequestWord value count) = some (0x1234, value.toNat, count.toNat)) ∧
    ∀ (command : Command) (count : UInt32),
      unpackRequest (encodeRequest command count) = some (0x1234, command.code.toNat, count.toNat) := by
  refine ⟨fun record hrange => ⟨makeRecord_eq_pack record, decodeRecord_pack hrange⟩, ?_, ?_,
    readI32Checked_eq, unpackRequest_encodeRequestWord,
    fun command count => unpackRequest_encodeRequestWord command.code count⟩
  · intro data hlength
    cases hdecode : decodeRecord data with
    | error what => simp [decodeRecord, hlength] at hdecode
    | ok record =>
      exact ⟨record, rfl, decodeRecord_inRange hdecode, pack_of_decodeRecord hdecode⟩
  · intro data hlength
    exact ⟨_, if_pos hlength⟩

/-- The extreme axis values survive, INT32_MIN included. -/
theorem extremes_roundTrip :
    decodeRecord (RawRecord.pack { fx := -2 ^ 31, fy := 2 ^ 31 - 1, fz := -1, status := 0xffffffff }) =
      .ok { fx := -2 ^ 31, fy := 2 ^ 31 - 1, fz := -1, status := 0xffffffff } :=
  (wire_roundTrip.1 _ (by simp [RawRecord.InRange])).2

end NetFT

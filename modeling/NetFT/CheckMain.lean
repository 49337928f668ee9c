/-
# NetFT.CheckMain — the JSON output of the check tool (`check_main.cpp`).

`serialize` and `serialize_error` write their objects through output streams.  A string escapes what JSON
does not allow in it, a control character with four hexadecimal digits, for which the stream is switched
to base 16 and back.

* `jsonString_token`: **the text of a string is one token**, and its value is the string.
* `parse_serializeError`, `parse_serialize`: the objects have the same members whatever the strings are.
* **`strings_are_safe`**: no content of a string breaks the output, and different contents are written
  differently.
-/
import NetFT.Library.Fallible
import NetFT.Library.Json
import NetFT.Library.Stream
import NetFT.UnitConversion
import NetFT.XmlConfig

namespace NetFT.CheckMain

set_option autoImplicit false

open Library (Double Stream bind_eq_ok_iff)
open Library.Json
open XmlConfig (ascii)

/-! ## Values -/

/-- One round of the loop of `json_string`. -/
def jsonCharacter (output : Stream) (character : UInt8) : Stream :=
  if character = 0x22 ∨ character = 0x5c then (output.insert (ascii "\\")).insert [character]
  else if character = 0x0a then output.insert (ascii "\\n")
  else if character = 0x0d then output.insert (ascii "\\r")
  else if character = 0x09 then output.insert (ascii "\\t")
  else if character < 0x20 then
    (((output.insert (ascii "\\u")).setHex.setWidth 4).setFill 0x30
      |>.insertNumber character.toNat).setDec
  else output.insert [character]

/-- `json_string`: every character escaped that must be. -/
def jsonString (value : List UInt8) : List UInt8 :=
  let output := ({} : Stream).insert (ascii "\"")
  (value.foldl jsonCharacter output).text ++ ascii "\""

/-- `max_digits10` of a double. -/
def maxDigits10 : ℕ := 17

/-- `json_number`: 17 digits; infinite values and NaN are errors. -/
def jsonNumber : Double → Except String (List UInt8)
  | .finite q => .ok ((Library.Format.general maxDigits10 q).map fun c => c.toNat.toUInt8)
  | _ => .error "non-finite JSON value"

/-- `json_optional_sequence`. -/
def jsonOptionalSequence : Option UInt32 → List UInt8
  | some sequence => Stream.digits 10 sequence.toNat
  | none => ascii "null"

/-- `json_wrench`: the force or the torque of a sample, or `null`. -/
def jsonWrench (sample : Option SiSample) (force : Bool) : Except String (List UInt8) := do
  let some sample := sample | return ascii "null"
  let values := if force then sample.force else sample.torque
  let x ← jsonNumber values.x
  let y ← jsonNumber values.y
  let z ← jsonNumber values.z
  return ascii "[" ++ x ++ ascii ", " ++ y ++ ascii ", " ++ z ++ ascii "]"

/-- `configuration_source`. -/
def configurationSource (source : CalibrationSource) : String :=
  if source = .Sensor then "sensor" else "override"

/-! ## Objects -/

/-- What `run_check` gives. -/
structure Result where
  endpoint : List UInt8
  requestedDurationS : Double := .finite 0
  elapsedS : Double := .finite 0
  health : HealthSnapshot
  last : Option Sample := none

/-- `configuration ? json_string(...) : "null"`. -/
def stringOrNull : Option String → List UInt8
  | some value => jsonString (ascii value)
  | none => ascii "null"

/-- `configuration ? json_number(...) : "null"`. -/
def numberOrNull : Option Double → Except String (List UInt8)
  | some value => jsonNumber value
  | none => .ok (ascii "null")

/-- What a line puts before its value. -/
def label (name : String) : List UInt8 := ascii ("  \"" ++ name ++ "\": ")

/-- `serialize`; an exception of `json_number` leaves nothing behind. -/
def serialize (result : Result) : Except String (List UInt8) := do
  let health := result.health
  let configuration := health.sensorConfiguration
  let siSample ← result.last.mapM toSiSample
  let forceCounts ← numberOrNull (configuration.map (.finite ·.calibration.countsPerForceUnit))
  let torqueCounts ← numberOrNull (configuration.map (.finite ·.calibration.countsPerTorqueUnit))
  let elapsed ← jsonNumber result.elapsedS
  let lastForce ← jsonWrench siSample true
  let lastTorque ← jsonWrench siSample false
  let rate ← jsonNumber ((Double.ofRat health.receivedCount).div result.elapsedS)
  let requested ← jsonNumber result.requestedDurationS
  let newline := ascii ",\n"
  let output := ({} : Stream).insert (ascii "\x7b\n")
    |>.insert (label "configuration_source")
    |>.insert (stringOrNull (configuration.map (configurationSource ·.source))) |>.insert newline
    |>.insert (label "force_unit")
    |>.insert (stringOrNull (configuration.map (·.calibration.forceUnit.toString))) |>.insert newline
    |>.insert (label "torque_unit")
    |>.insert (stringOrNull (configuration.map (·.calibration.torqueUnit.toString))) |>.insert newline
    |>.insert (label "counts_per_force_unit") |>.insert forceCounts |>.insert newline
    |>.insert (label "counts_per_torque_unit") |>.insert torqueCounts |>.insert newline
    |>.insert (label "device_error_count") |>.insertNumber health.deviceErrorCount |>.insert newline
    |>.insert (label "device_status" ++ ascii "\"0x")
  let output := ((output.setHex.setWidth 8).setFill 0x30 |>.insertNumber health.lastStatus.toNat).setDec
  let output := output
    |>.insert (ascii "\",\n")
    |>.insert (label "duplicate_count") |>.insertNumber health.duplicateCount |>.insert newline
    |>.insert (label "elapsed_s") |>.insert elapsed |>.insert newline
    |>.insert (label "endpoint") |>.insert (jsonString result.endpoint) |>.insert newline
    |>.insert (label "last_force_n") |>.insert lastForce |>.insert newline
    |>.insert (label "last_ft_sequence")
    |>.insert (jsonOptionalSequence health.lastFtSequence) |>.insert newline
    |>.insert (label "last_rdt_sequence")
    |>.insert (jsonOptionalSequence health.lastRdtSequence) |>.insert newline
    |>.insert (label "last_torque_nm") |>.insert lastTorque |>.insert newline
    |>.insert (label "lost_count") |>.insertNumber health.lostCount |>.insert newline
    |>.insert (label "malformed_count") |>.insertNumber health.malformedCount |>.insert newline
    |>.insert (label "out_of_order_count") |>.insertNumber health.outOfOrderCount |>.insert newline
    |>.insert (label "receive_rate_hz") |>.insert rate |>.insert newline
    |>.insert (label "reconnect_count") |>.insertNumber health.reconnectCount |>.insert newline
    |>.insert (label "requested_duration_s") |>.insert requested |>.insert newline
    |>.insert (label "sample_count") |>.insertNumber health.receivedCount |>.insert newline
    |>.insert (label "timeout_count") |>.insertNumber health.timeoutCount |>.insert newline
    |>.insert (label "warning_count") |>.insertNumber health.warningCount |>.insert (ascii "\n\x7d")
  return output.text

/-- `serialize_error`. -/
def serializeError (category message : List UInt8) : List UInt8 :=
  ascii "\x7b\n  \"error\": " ++ jsonString category ++
    ascii ",\n  \"exit_code\": 2,\n  \"message\": " ++ jsonString message ++ ascii "\n\x7d"

/-! ## Strings -/

/-- What the loop of `json_string` writes for a character. -/
def escape (character : UInt8) : List UInt8 :=
  if character = 0x22 ∨ character = 0x5c then [backslash, character]
  else if character = 0x0a then [backslash, 0x6e]
  else if character = 0x0d then [backslash, 0x72]
  else if character = 0x09 then [backslash, 0x74]
  else if character < 0x20 then
    [backslash, 0x75] ++ (Stream.digits 16 character.toNat).leftpad 4 0x30
  else [character]

/-- What it stands for. -/
def element (character : UInt8) : Element :=
  if character < 0x20 ∧ character ≠ 0x0a ∧ character ≠ 0x0d ∧ character ≠ 0x09 then
    .codeUnit character.toNat
  else .byte character

/-- A control character has four digits. -/
theorem hexNumber_control {n : ℕ} (hn : n < 32) :
    ∃ d₁ d₂ d₃ d₄, (Stream.digits 16 n).leftpad 4 0x30 = [d₁, d₂, d₃, d₄] ∧
      hexNumber [d₁, d₂, d₃, d₄] = some n := by
  have hall : ∀ n < 32, ((Stream.digits 16 n).leftpad 4 0x30).length = 4 ∧
      hexNumber ((Stream.digits 16 n).leftpad 4 0x30) = some n := by decide +kernel
  obtain ⟨hlength, hvalue⟩ := hall n hn
  match hdigits : (Stream.digits 16 n).leftpad 4 0x30, hlength with
  | [d₁, d₂, d₃, d₄], _ => exact ⟨d₁, d₂, d₃, d₄, rfl, by rw [← hdigits]; exact hvalue⟩

/-- What is written for a byte is a JSON character. -/
theorem character_escape (character : UInt8) : Character (escape character) (element character) := by
  by_cases hquote : character = 0x22 ∨ character = 0x5c
  · rw [escape, if_pos hquote]
    rcases hquote with rfl | rfl <;> exact .escape (by decide)
  by_cases hline : character = 0x0a
  · subst hline
    exact (.escape rfl : Character [backslash, 0x6e] (.byte 0x0a))
  by_cases hreturn : character = 0x0d
  · subst hreturn
    exact (.escape rfl : Character [backslash, 0x72] (.byte 0x0d))
  by_cases htab : character = 0x09
  · subst htab
    exact (.escape rfl : Character [backslash, 0x74] (.byte 0x09))
  rw [escape, if_neg hquote, if_neg hline, if_neg hreturn, if_neg htab, element]
  by_cases hcontrol : character < 0x20
  · obtain ⟨d₁, d₂, d₃, d₄, hdigits, hvalue⟩ :=
      hexNumber_control (show character.toNat < 32 from UInt8.lt_iff_toNat_lt.mp hcontrol)
    rw [if_pos hcontrol, if_pos ⟨hcontrol, hline, hreturn, htab⟩, hdigits]
    exact .unicode hvalue
  · rw [if_neg hcontrol, if_neg fun h => hcontrol h.1]
    exact .plain (UInt8.not_lt.mp hcontrol) (fun h => hquote (.inl h)) fun h => hquote (.inr h)

/-- A control character is its own encoding. -/
theorem encode_control {n : ℕ} (hn : n < 32) : isHighSurrogate n = false ∧ isLowSurrogate n = false ∧
    String.utf8EncodeChar (Char.ofNat n) = [n.toUInt8] := by
  have hall : ∀ n < 32, isHighSurrogate n = false ∧ isLowSurrogate n = false ∧
      String.utf8EncodeChar (Char.ofNat n) = [n.toUInt8] := by decide +kernel
  exact hall n hn

/-- The characters spell the bytes. -/
theorem assemble_element (value : List UInt8) : assemble (value.map element) = some value := by
  induction value with
  | nil => rfl
  | cons character value ih =>
    rw [List.map_cons, element]
    split_ifs with hcontrol
    · obtain ⟨hhigh, hlow, hencode⟩ :=
        encode_control (show character.toNat < 32 from UInt8.lt_iff_toNat_lt.mp hcontrol.1)
      rw [assemble_codeUnit hhigh hlow, hencode, ih]
      simp
    · rw [assemble, ih, Option.map_some]

/-- The stream is plain again after every character. -/
theorem jsonCharacter_mk (text : List UInt8) (fill character : UInt8) :
    ∃ fill', jsonCharacter ⟨text, false, 0, fill⟩ character =
      ⟨text ++ escape character, false, 0, fill'⟩ := by
  unfold jsonCharacter escape
  split_ifs
  · exact ⟨fill, by simp; rfl⟩
  · exact ⟨fill, by simp; rfl⟩
  · exact ⟨fill, by simp; rfl⟩
  · exact ⟨fill, by simp; rfl⟩
  · exact ⟨0x30, by simp; rfl⟩
  · exact ⟨fill, by simp⟩

theorem foldl_jsonCharacter (value text : List UInt8) (fill : UInt8) :
    ∃ fill', value.foldl jsonCharacter ⟨text, false, 0, fill⟩ =
      ⟨text ++ (value.map escape).flatten, false, 0, fill'⟩ := by
  induction value generalizing text fill with
  | nil => exact ⟨fill, by simp⟩
  | cons character value ih =>
    obtain ⟨fill', hcharacter⟩ := jsonCharacter_mk text fill character
    obtain ⟨fill'', hvalue⟩ := ih (text ++ escape character) fill'
    refine ⟨fill'', ?_⟩
    rw [List.foldl_cons, hcharacter, hvalue, List.map_cons, List.flatten_cons, List.append_assoc]

theorem jsonString_eq (value : List UInt8) :
    jsonString value = quote :: ((value.map escape).flatten ++ [quote]) := by
  obtain ⟨fill, hvalue⟩ := foldl_jsonCharacter value [quote] 0x20
  have hstart : ({} : Stream).insert (ascii "\"") = ⟨[quote], false, 0, 0x20⟩ := by
    rw [Stream.insert_mk]
    rfl
  rw [jsonString, hstart, hvalue]
  rfl

/-- **The text of a string is one token**, and its value is the string. -/
theorem jsonString_token (value : List UInt8) : StringToken (jsonString value) value := by
  rw [jsonString_eq]
  refine .mk ?_ (assemble_element value)
  induction value with
  | nil => exact .nil
  | cons character value ih => exact .cons (character_escape character) ih

/-- Two values are never written alike. -/
theorem jsonString_injective : Function.Injective jsonString := by
  intro value value' h
  exact ((jsonString_token value).unique (jsonString_token value')
    (congrArg (· ++ []) h)).2

/-! ## Other values -/

def bytes (text : List Char) : List UInt8 := text.map fun c => c.toNat.toUInt8

/-- The byte of a digit. -/
theorem toNat_digit {c : Char} (h : c.isDigit = true) :
    48 ≤ c.toNat ∧ c.toNat ≤ 57 ∧ c.toNat.toUInt8.toNat = c.toNat := by
  rw [Char.isDigit, Bool.and_eq_true, decide_eq_true_eq, decide_eq_true_eq] at h
  have hlo : 48 ≤ c.toNat := UInt32.le_iff_toNat_le.mp h.1
  have hhi : c.toNat ≤ 57 := UInt32.le_iff_toNat_le.mp h.2
  refine ⟨hlo, hhi, ?_⟩
  rw [Nat.toUInt8, UInt8.toNat_ofNat']
  exact Nat.mod_eq_of_lt (by omega)

theorem isDigit_byte {c : Char} (h : c.isDigit = true) : isDigit c.toNat.toUInt8 = true := by
  obtain ⟨hlo, hhi, hbyte⟩ := toNat_digit h
  rw [isDigit, Bool.and_eq_true, decide_eq_true_eq, decide_eq_true_eq, UInt8.le_iff_toNat_le,
    UInt8.le_iff_toNat_le, hbyte]
  exact ⟨hlo, hhi⟩

/-- Digits are written as digits. -/
theorem isDigits_bytes {text : List Char} (hne : text ≠ [])
    (h : ∀ c ∈ text, c.isDigit = true) : isDigits (bytes text) = true := by
  rw [isDigits, Bool.and_eq_true, decide_eq_true_eq]
  refine ⟨by simpa [bytes] using hne, List.all_eq_true.mpr fun b hb => ?_⟩
  obtain ⟨c, hc, rfl⟩ := List.mem_map.mp hb
  exact isDigit_byte (h c hc)

/-- A whole part has no leading zero. -/
theorem whole_bytes {text : List Char} (h : Library.Format.Whole text) :
    bytes text = [0x30] ∨ isDigits (bytes text) = true ∧ (bytes text).head? ≠ some 0x30 := by
  rcases h with rfl | ⟨hne, hhead, hdigits⟩
  · exact .inl rfl
  · refine .inr ⟨isDigits_bytes hne hdigits, ?_⟩
    obtain ⟨c, text, rfl⟩ := List.exists_cons_of_ne_nil hne
    obtain ⟨-, -, hbyte⟩ := toNat_digit (hdigits c (List.mem_cons_self ..))
    intro hzero
    have heq : c.toNat.toUInt8 = 0x30 := Option.some_inj.mp hzero
    rw [heq] at hbyte
    exact hhead (congrArg some (Char.toNat_inj.mp hbyte.symm))

/-- A decimal number is a JSON number. -/
theorem isNumber_digits (n : ℕ) : isNumber (Stream.digits 10 n) = true := by
  have h := isNumber_of_parts false (whole_bytes (Library.Format.whole_toDigits n)) (.inl rfl) (.inl rfl)
  rw [if_neg Bool.false_ne_true, List.nil_append, List.append_nil, List.append_nil] at h
  exact h

/-- So is a finite double. -/
theorem isNumber_general (q : ℚ) : isNumber (bytes (Library.Format.general maxDigits10 q)) = true := by
  obtain ⟨whole, fraction, exponent, heq, hwhole, hfraction, hexponent⟩ :=
    Library.Format.general_shape (show 0 < maxDigits10 by decide) q
  have hsigned : bytes (Library.Format.general maxDigits10 q) =
      (if decide (q < 0) then [0x2d] else []) ++ (bytes whole ++ (bytes fraction ++ bytes exponent)) := by
    rw [heq, Library.Format.signed]
    by_cases hq : q < 0 <;> simp [bytes, hq]
  rw [hsigned]
  refine isNumber_of_parts _ (whole_bytes hwhole) ?_ ?_
  · rcases hfraction with rfl | ⟨digits, rfl, hne, hdigits⟩
    · exact .inl rfl
    · exact .inr ⟨bytes digits, rfl, isDigits_bytes hne hdigits⟩
  · rcases hexponent with rfl | ⟨sign, digits, rfl, hsign, hne, hdigits⟩
    · exact .inl rfl
    · refine .inr ⟨_, bytes digits, rfl, ?_, isDigits_bytes hne hdigits⟩
      rcases hsign with rfl | rfl
      · exact .inl rfl
      · exact .inr rfl

/-- The value of a double. -/
def numberValue (x : Double) : Value :=
  match x with
  | .finite q => .number (bytes (Library.Format.general maxDigits10 q))
  | _ => .null

/-- A number that is written reads as a number. -/
theorem reads_jsonNumber {x : Double} {text : List UInt8} (h : jsonNumber x = .ok text) :
    Reads text (numberValue x) := by
  cases x with
  | finite q =>
    cases h
    exact .number (isNumber_general q)
  | infinite _ => cases h
  | nan => cases h

theorem reads_null : Reads (ascii "null") .null := Reads.null

/-- Counts per unit read as a number, or as `null` without a configuration. -/
theorem reads_counts {configuration : Option SensorConfiguration} (counts : SensorConfiguration → ℚ)
    {text : List UInt8} (h : numberOrNull (configuration.map (.finite <| counts ·)) = .ok text) :
    Reads text ((configuration.map counts).elim .null (numberValue <| .finite ·)) := by
  cases configuration with
  | none =>
    cases h
    exact reads_null
  | some configuration =>
    have hnumber : jsonNumber (.finite (counts configuration)) = .ok text := h
    exact reads_jsonNumber hnumber

/-- A string reads as itself. -/
theorem reads_stringOrNull (value : Option String) :
    Reads (stringOrNull value) (value.elim .null (.string <| ascii ·)) := by
  cases value with
  | none => exact reads_null
  | some value => exact .string (jsonString_token _)

/-- The value of a counter. -/
def counterValue (n : ℕ) : Value := .number (Stream.digits 10 n)

theorem reads_counter (n : ℕ) : Reads (Stream.digits 10 n) (counterValue n) := .number (isNumber_digits n)

theorem reads_jsonOptionalSequence (sequence : Option UInt32) :
    Reads (jsonOptionalSequence sequence) (sequence.elim .null (counterValue ·.toNat)) := by
  cases sequence with
  | none => exact reads_null
  | some sequence => exact reads_counter _

/-- The value of a wrench. -/
def wrenchValue (sample : Option SiSample) (force : Bool) : Value :=
  match sample with
  | none => .null
  | some sample =>
    let values := if force then sample.force else sample.torque
    .array [numberValue values.x, numberValue values.y, numberValue values.z]

/-- A wrench reads as its three values. -/
theorem reads_jsonWrench {sample : Option SiSample} {force : Bool} {text : List UInt8}
    (h : jsonWrench sample force = .ok text) : Reads text (wrenchValue sample force) := by
  cases sample with
  | none =>
    cases h
    exact reads_null
  | some sample =>
    simp only [jsonWrench, bind, Except.bind, pure, Except.pure] at h
    split at h
    · cases h
    rename_i x hx
    split at h
    · cases h
    rename_i y hy
    split at h
    · cases h
    rename_i z hz
    cases h
    have hspaces : List.all [0x20] Library.Json.isSpace = true := by decide
    have hreads := Reads.array hspaces
      (.cons (reads_jsonNumber hx) (.cons (reads_jsonNumber hy) (.cons (reads_jsonNumber hz) .nil)))
      (by simp)
    simp only [List.intercalate_cons_cons, List.intercalate_singleton, List.append_assoc] at hreads
    simp only [List.append_assoc]
    exact hreads

/-! ## Objects -/

/-- Neither a control character nor one that is escaped. -/
def isPlain (character : UInt8) : Bool :=
  0x20 ≤ character && character ≠ quote && character ≠ backslash

/-- Plain bytes between quotes are a string token. -/
theorem plainToken {text : List UInt8} (h : text.all isPlain = true) :
    StringToken (quote :: (text ++ [quote])) text := by
  have hvalue : assemble (text.map .byte) = some text := by
    clear h
    induction text with
    | nil => rfl
    | cons b text ih => rw [List.map_cons, assemble, ih, Option.map_some]
  have hparts : List.Forall₂ Character (text.map ([·])) (text.map .byte) := by
    clear hvalue
    induction text with
    | nil => exact .nil
    | cons b text ih =>
      rw [List.all_cons, Bool.and_eq_true, isPlain, Bool.and_eq_true, Bool.and_eq_true,
        decide_eq_true_eq, decide_eq_true_eq, decide_eq_true_eq] at h
      exact .cons (.plain h.1.1.1 h.1.1.2 h.1.2) (ih h.2)
  have htoken := StringToken.mk hparts hvalue
  rwa [← List.flatMap_def, List.flatMap_singleton'] at htoken

theorem ascii_append (s t : String) : ascii (s ++ t) = ascii s ++ ascii t := by
  simp [ascii, String.toList_append]

theorem label_eq (name : String) :
    label name = [0x20, 0x20] ++ ((quote :: (ascii name ++ [quote])) ++ [0x3a, 0x20]) := by
  rw [label, ascii_append, ascii_append, List.append_assoc]
  have hopen : ascii "  \"" = [0x20, 0x20, quote] := by decide
  have hclose : ascii "\": " = [quote, 0x3a, 0x20] := by decide
  rw [hopen, hclose]
  simp

/-- A line of an object. -/
theorem readsMember_label {name : String} {text : List UInt8} {value : Value}
    (hname : (ascii name).all isPlain = true) (h : Reads text value) :
    ReadsMember (label name ++ text) (ascii name, value) := by
  have hmember : ReadsMember ([0x20, 0x20] ++
      ((quote :: (ascii name ++ [quote])) ++ 0x3a :: ([0x20] ++ text))) (ascii name, value) :=
    .mk (by decide) (plainToken hname) (by decide) h
  rw [label_eq]
  simpa using hmember

/-- The lines of an object between its braces. -/
def layout (lines : List (List UInt8)) : List UInt8 :=
  ascii "\x7b\n" ++ ((ascii ",\n").intercalate lines ++ ascii "\n\x7d")

/-- A report of lines parses as an object of their members. -/
theorem parse_layout {lines : List (List UInt8)} {members : List (List UInt8 × Value)}
    (h : List.Forall₂ ReadsMember lines members) (hne : lines ≠ []) :
    parse (layout lines) = some (.object members) := by
  have hspaces : List.all [0x0a] Library.Json.isSpace = true := by decide
  exact parse_of_reads (.object hspaces hspaces hspaces h hne)

/-- The members of an error. -/
def errorMembers (category message : List UInt8) : List (List UInt8 × Value) :=
  [(ascii "error", .string category), (ascii "exit_code", .number (ascii "2")),
    (ascii "message", .string message)]

/-- An error parses, with its category and message. -/
theorem parse_serializeError (category message : List UInt8) :
    parse (serializeError category message) = some (.object (errorMembers category message)) := by
  have hlayout : serializeError category message =
      layout [label "error" ++ jsonString category, label "exit_code" ++ ascii "2",
        label "message" ++ jsonString message] := by
    have hfirst : ascii "\x7b\n  \"error\": " = ascii "\x7b\n" ++ label "error" := by decide
    have hmiddle : ascii ",\n  \"exit_code\": 2,\n  \"message\": " =
        ascii ",\n" ++ (label "exit_code" ++ (ascii "2" ++ (ascii ",\n" ++ label "message"))) := by decide
    simp only [serializeError, hfirst, hmiddle, layout, List.intercalate_cons_cons,
      List.intercalate_singleton, List.append_assoc]
  rw [hlayout]
  refine parse_layout (.cons ?_ (.cons ?_ (.cons ?_ .nil))) (by simp)
  · exact readsMember_label (by decide) (.string (jsonString_token category))
  · exact readsMember_label (by decide) (.number (by decide))
  · exact readsMember_label (by decide) (.string (jsonString_token message))

/-- The device status in hexadecimal. -/
def statusText (status : UInt32) : List UInt8 :=
  ascii "0x" ++ (Stream.digits 16 status.toNat).leftpad 8 0x30

theorem statusText_isPlain (status : UInt32) : (statusText status).all isPlain = true := by
  have hdigit : ∀ k < 16, isPlain (Nat.digitChar k).toNat.toUInt8 = true := by decide
  rw [statusText, List.all_append, Bool.and_eq_true]
  refine ⟨by decide, List.all_eq_true.mpr fun b hb => ?_⟩
  rcases List.mem_append.mp hb with hb | hb
  · rw [List.eq_of_mem_replicate hb]
    rfl
  · obtain ⟨k, hk, rfl⟩ := Stream.mem_digits (by decide) hb
    exact hdigit k hk

/-- The members of a result. -/
def resultMembers (result : Result) (siSample : Option SiSample) : List (List UInt8 × Value) :=
  let health := result.health
  let configuration := health.sensorConfiguration
  let stringValue (value : Option String) : Value := value.elim .null (.string <| ascii ·)
  let countsValue (counts : Option ℚ) : Value := counts.elim .null (numberValue <| .finite ·)
  let sequenceValue (sequence : Option UInt32) : Value := sequence.elim .null (counterValue ·.toNat)
  [(ascii "configuration_source", stringValue (configuration.map (configurationSource ·.source))),
    (ascii "force_unit", stringValue (configuration.map (·.calibration.forceUnit.toString))),
    (ascii "torque_unit", stringValue (configuration.map (·.calibration.torqueUnit.toString))),
    (ascii "counts_per_force_unit", countsValue (configuration.map (·.calibration.countsPerForceUnit))),
    (ascii "counts_per_torque_unit",
      countsValue (configuration.map (·.calibration.countsPerTorqueUnit))),
    (ascii "device_error_count", counterValue health.deviceErrorCount),
    (ascii "device_status", .string (statusText health.lastStatus)),
    (ascii "duplicate_count", counterValue health.duplicateCount),
    (ascii "elapsed_s", numberValue result.elapsedS),
    (ascii "endpoint", .string result.endpoint),
    (ascii "last_force_n", wrenchValue siSample true),
    (ascii "last_ft_sequence", sequenceValue health.lastFtSequence),
    (ascii "last_rdt_sequence", sequenceValue health.lastRdtSequence),
    (ascii "last_torque_nm", wrenchValue siSample false),
    (ascii "lost_count", counterValue health.lostCount),
    (ascii "malformed_count", counterValue health.malformedCount),
    (ascii "out_of_order_count", counterValue health.outOfOrderCount),
    (ascii "receive_rate_hz",
      numberValue ((Double.ofRat health.receivedCount).div result.elapsedS)),
    (ascii "reconnect_count", counterValue health.reconnectCount),
    (ascii "requested_duration_s", numberValue result.requestedDurationS),
    (ascii "sample_count", counterValue health.receivedCount),
    (ascii "timeout_count", counterValue health.timeoutCount),
    (ascii "warning_count", counterValue health.warningCount)]

/-- **A report parses**, with the values of its result. -/
theorem parse_serialize {result : Result} {text : List UInt8} (h : serialize result = .ok text) :
    ∃ siSample, result.last.mapM toSiSample = .ok siSample ∧
      parse text = some (.object (resultMembers result siSample)) := by
  simp only [serialize, bind_eq_ok_iff] at h
  obtain ⟨siSample, hsample, forceCounts, hforceCounts, torqueCounts, htorqueCounts, elapsed, helapsed,
    lastForce, hlastForce, lastTorque, hlastTorque, rate, hrate, requested, hrequested, h⟩ := h
  refine ⟨siSample, hsample, ?_⟩
  have hlayout : text = layout [
      label "configuration_source" ++
        stringOrNull (result.health.sensorConfiguration.map (configurationSource ·.source)),
      label "force_unit" ++
        stringOrNull (result.health.sensorConfiguration.map (·.calibration.forceUnit.toString)),
      label "torque_unit" ++
        stringOrNull (result.health.sensorConfiguration.map (·.calibration.torqueUnit.toString)),
      label "counts_per_force_unit" ++ forceCounts,
      label "counts_per_torque_unit" ++ torqueCounts,
      label "device_error_count" ++ Stream.digits 10 result.health.deviceErrorCount,
      label "device_status" ++ (quote :: (statusText result.health.lastStatus ++ [quote])),
      label "duplicate_count" ++ Stream.digits 10 result.health.duplicateCount,
      label "elapsed_s" ++ elapsed,
      label "endpoint" ++ jsonString result.endpoint,
      label "last_force_n" ++ lastForce,
      label "last_ft_sequence" ++ jsonOptionalSequence result.health.lastFtSequence,
      label "last_rdt_sequence" ++ jsonOptionalSequence result.health.lastRdtSequence,
      label "last_torque_nm" ++ lastTorque,
      label "lost_count" ++ Stream.digits 10 result.health.lostCount,
      label "malformed_count" ++ Stream.digits 10 result.health.malformedCount,
      label "out_of_order_count" ++ Stream.digits 10 result.health.outOfOrderCount,
      label "receive_rate_hz" ++ rate,
      label "reconnect_count" ++ Stream.digits 10 result.health.reconnectCount,
      label "requested_duration_s" ++ requested,
      label "sample_count" ++ Stream.digits 10 result.health.receivedCount,
      label "timeout_count" ++ Stream.digits 10 result.health.timeoutCount,
      label "warning_count" ++ Stream.digits 10 result.health.warningCount] := by
    have hquote : ascii "\"0x" = quote :: ascii "0x" := by decide
    have hnewline : ascii "\",\n" = quote :: ascii ",\n" := by decide
    simp only [Stream.insert_mk, Stream.insertNumber_mk, Stream.hexadecimal_mk, pure, Except.pure,
      Except.ok.injEq] at h
    rw [← h]
    simp only [hquote, hnewline, layout, statusText, List.intercalate_cons_cons,
      List.intercalate_singleton, List.append_assoc, List.cons_append, List.nil_append]
  rw [hlayout]
  have counter : ∀ {name : String} (n : ℕ), (ascii name).all isPlain = true →
      ReadsMember (label name ++ Stream.digits 10 n) (ascii name, counterValue n) :=
    fun n hname => readsMember_label hname (reads_counter n)
  have optional : ∀ {name : String} (value : Option String), (ascii name).all isPlain = true →
      ReadsMember (label name ++ stringOrNull value) (ascii name, value.elim .null (.string <| ascii ·)) :=
    fun value hname => readsMember_label hname (reads_stringOrNull value)
  have sequence : ∀ {name : String} (value : Option UInt32), (ascii name).all isPlain = true →
      ReadsMember (label name ++ jsonOptionalSequence value)
        (ascii name, value.elim .null (counterValue ·.toNat)) :=
    fun value hname => readsMember_label hname (reads_jsonOptionalSequence value)
  have number : ∀ {name : String} {x : Double} {part : List UInt8}, jsonNumber x = .ok part →
      (ascii name).all isPlain = true → ReadsMember (label name ++ part) (ascii name, numberValue x) :=
    fun hpart hname => readsMember_label hname (reads_jsonNumber hpart)
  refine parse_layout (.cons (optional _ ?_) <| .cons (optional _ ?_) <| .cons (optional _ ?_) <|
    .cons (readsMember_label ?_ (reads_counts (·.calibration.countsPerForceUnit) hforceCounts)) <|
    .cons (readsMember_label ?_ (reads_counts (·.calibration.countsPerTorqueUnit) htorqueCounts)) <|
    .cons (counter _ ?_) <| .cons (readsMember_label ?_ (.string (plainToken (statusText_isPlain _)))) <|
    .cons (counter _ ?_) <| .cons (number helapsed ?_) <|
    .cons (readsMember_label ?_ (.string (jsonString_token _))) <|
    .cons (readsMember_label ?_ (reads_jsonWrench hlastForce)) <|
    .cons (sequence _ ?_) <| .cons (sequence _ ?_) <|
    .cons (readsMember_label ?_ (reads_jsonWrench hlastTorque)) <|
    .cons (counter _ ?_) <| .cons (counter _ ?_) <| .cons (counter _ ?_) <| .cons (number hrate ?_) <|
    .cons (counter _ ?_) <| .cons (number hrequested ?_) <| .cons (counter _ ?_) <|
    .cons (counter _ ?_) <| .cons (counter _ ?_) .nil) (List.cons_ne_nil _ _)
  all_goals decide

/-! ## What the content of strings cannot do -/

/-- What a reader of the JSON output relies on. -/
structure StringsAreSafe : Prop where
  token : ∀ value, StringToken (jsonString value) value
  decoded : ∀ value rest, scanString (jsonString value ++ rest) = some (value, rest)
  injective : Function.Injective jsonString
  error : ∀ category message,
    parse (serializeError category message) = some (.object (errorMembers category message))
  result : ∀ result text, serialize result = .ok text →
    ∃ siSample, result.last.mapM toSiSample = .ok siSample ∧
      parse text = some (.object (resultMembers result siSample))

/-- **No string breaks the output it is written to.** -/
theorem strings_are_safe : StringsAreSafe where
  token := jsonString_token
  decoded value rest := (jsonString_token value).scanned rest
  injective := jsonString_injective
  error := parse_serializeError
  result _ _ := parse_serialize

example : (serialize
    { endpoint := ascii "sensor\":49152", elapsedS := .finite 5, health := { receivedCount := 3 } }).isOk =
      true := by
  decide +kernel

end NetFT.CheckMain

/-
# NetFT.SensorConfig — the configuration page as a calibration (`xml_config.cpp`).

`parse_sensor_configuration` reads two numbers of counts and two units from the fields of the page.  A
number is read by an input stream of the classic locale, which has to take the field as a whole; the
rounding mode is set to nearest for it.

* `Describes`: what a document says of a sensor, stated without the parser.
* **`parseSensorConfiguration_iff`**: the parser takes the documents that describe a sensor, for what they
  say of it, and no other byte string.
-/
import NetFT.ConfigChecks
import NetFT.Library.Decimal
import NetFT.XmlAccepts

namespace NetFT

set_option autoImplicit false

open XmlConfig (ascii)

/-! ## Units -/

/-- `force_unit_from_string`. -/
def forceUnitFromString (value : List UInt8) : Option ForceUnit :=
  [.Unknown, .PoundForce, .Newton, .KiloPoundForce, .KiloNewton, .KilogramForce].find? fun unit : ForceUnit =>
    ascii unit.toString = value

/-- `torque_unit_from_string`. -/
def torqueUnitFromString (value : List UInt8) : Option TorqueUnit :=
  [.Unknown, .PoundForceInch, .PoundForceFoot, .NewtonMeter, .NewtonMillimeter, .KilogramForceCentimeter,
    .KiloNewtonMeter].find? fun unit : TorqueUnit => ascii unit.toString = value

/-- The spelling of a force unit is its name. -/
theorem forceUnitFromString_eq_some_iff {value : List UInt8} {unit : ForceUnit} :
    forceUnitFromString value = some unit ↔ value = ascii unit.toString := by
  constructor
  · intro h
    have hfound := List.find?_some h
    exact (of_decide_eq_true hfound).symm
  · rintro rfl
    cases unit <;> decide

/-- So is that of a torque unit. -/
theorem torqueUnitFromString_eq_some_iff {value : List UInt8} {unit : TorqueUnit} :
    torqueUnitFromString value = some unit ↔ value = ascii unit.toString := by
  constructor
  · intro h
    have hfound := List.find?_some h
    exact (of_decide_eq_true hfound).symm
  · rintro rfl
    cases unit <;> decide

namespace XmlConfig

open Library (Double bind_eq_ok_iff)
open Library.Decimal (NumeralText read read_eq_some_iff)

/-! ## The parser -/

/-- The bytes as characters, one each. -/
def characters (bytes : List UInt8) : List Char := bytes.map fun b => Char.ofNat b.toNat

def notPositive (tag : String) : String :=
  "sensor configuration field '" ++ tag ++ "' must be a finite positive number"

/-- The stream takes a number as `strtod` does, without a base prefix and without the names of what is not
finite; out of range it fails. -/
def parsePositiveCount (value : List UInt8) (tag : String) : Except String ℚ :=
  if value.head? = some 0x2b then .error (notPositive tag)
  else
    match (read (characters value)).map Double.ofRat with
    | some (.finite result) => if result ≤ 0 then .error (notPositive tag) else .ok result
    | _ => .error (notPositive tag)

/-- The older spellings of a torque unit, as the newer ones. -/
def normalizeTorqueSpelling (value : List UInt8) : List UInt8 :=
  if value = ascii "Nm" then ascii "N-m"
  else if value = ascii "Nmm" then ascii "N-mm"
  else if value = ascii "kg-cm" then ascii "kgf-cm"
  else value

/-- The force unit of a page, which must be known. -/
def parseForceUnit (value : List UInt8) : Except String ForceUnit :=
  match forceUnitFromString value with
  | none | some .Unknown => .error "sensor configuration contains an unknown force unit"
  | some unit => .ok unit

/-- The torque unit of a page, in either spelling. -/
def parseTorqueUnit (value : List UInt8) : Except String TorqueUnit :=
  match torqueUnitFromString (normalizeTorqueSpelling value) with
  | none | some .Unknown => .error "sensor configuration contains an unknown torque unit"
  | some unit => .ok unit

theorem neZero_tags : NeZero 5 := ⟨by decide⟩

attribute [local instance] neZero_tags

/-- `parse_sensor_configuration`. -/
def parseSensorConfiguration (xml : List UInt8) : Except String SensorConfiguration := do
  let fields ← extractRequiredFields xml
  let countsPerForceUnit ← parsePositiveCount (fields 1) "cfgcpf"
  let countsPerTorqueUnit ← parsePositiveCount (fields 2) "cfgcpt"
  let forceUnit ← parseForceUnit (fields 3)
  let torqueUnit ← parseTorqueUnit (fields 4)
  let calibration : Calibration := { countsPerForceUnit, countsPerTorqueUnit, forceUnit, torqueUnit }
  calibration.validate
  return { productName := String.ofList (characters (fields 0)), calibration, source := .Sensor, revision := 1 }

/-! ## What a page says -/

/-- A number of counts: a decimal number without a plus sign, rounded to a double. -/
def Counts (text : List UInt8) (counts : ℚ) : Prop :=
  text.head? ≠ some 0x2b ∧ ∃ n, NumeralText (characters text) n ∧ Double.ofRat n.value = .finite counts

/-- The spelling that old firmware has for a unit. -/
def legacySpelling : TorqueUnit → Option String
  | .NewtonMeter => some "Nm"
  | .NewtonMillimeter => some "Nmm"
  | .KilogramForceCentimeter => some "kg-cm"
  | _ => none

/-- What a document says of a sensor. -/
structure Describes (f : Forest) (configuration : SensorConfiguration) : Prop where
  name : configuration.productName = String.ofList (characters (f.field 0))
  force : Counts (f.field 1) configuration.calibration.countsPerForceUnit
  torque : Counts (f.field 2) configuration.calibration.countsPerTorqueUnit
  forceUnit : f.field 3 = ascii configuration.calibration.forceUnit.toString
  torqueUnit : f.field 4 = ascii configuration.calibration.torqueUnit.toString ∨
    ∃ spelling ∈ legacySpelling configuration.calibration.torqueUnit, f.field 4 = ascii spelling
  valid : configuration.calibration.Valid
  source : configuration.source = .Sensor
  revision : configuration.revision = 1

/-! ## Fields -/

/-- A count passes exactly if it is a number, finite and positive. -/
theorem parsePositiveCount_iff {value : List UInt8} {tag : String} {counts : ℚ} :
    parsePositiveCount value tag = .ok counts ↔ Counts value counts ∧ 0 < counts := by
  have hnumber : ∀ {x : Double}, (read (characters value)).map Double.ofRat = some x ↔
      ∃ n, NumeralText (characters value) n ∧ Double.ofRat n.value = x := by
    intro x
    simp only [Option.map_eq_some_iff, read_eq_some_iff]
    constructor
    · rintro ⟨q, ⟨n, hn, rfl⟩, hx⟩
      exact ⟨n, hn, hx⟩
    · rintro ⟨n, hn, hx⟩
      exact ⟨_, ⟨n, hn, rfl⟩, hx⟩
  unfold parsePositiveCount Counts
  split_ifs with hplus
  · exact ⟨fun h => (by cases h), fun h => absurd hplus h.1.1⟩
  constructor
  · intro h
    split at h
    · rename_i result hread
      split_ifs at h with hle
      cases h
      exact ⟨⟨hplus, hnumber.mp hread⟩, not_le.mp hle⟩
    · cases h
  · intro h
    rw [hnumber.mpr h.1.2]
    exact if_neg (not_le.mpr h.2)

/-- A force unit passes exactly under its name. -/
theorem parseForceUnit_iff {value : List UInt8} {unit : ForceUnit} :
    parseForceUnit value = .ok unit ↔ value = ascii unit.toString ∧ unit ≠ .Unknown := by
  unfold parseForceUnit
  constructor
  · intro h
    split at h
    · cases h
    · cases h
    · rename_i hnot hunit
      cases h
      exact ⟨forceUnitFromString_eq_some_iff.mp hunit, hnot⟩
  · rintro ⟨rfl, hknown⟩
    rw [forceUnitFromString_eq_some_iff.mpr rfl]
    split
    · rename_i heq
      cases heq
    · rename_i heq
      exact absurd (Option.some.inj heq) hknown
    · rename_i heq
      rw [Option.some.inj heq]

theorem normalizeTorqueSpelling_iff {value : List UInt8} {unit : TorqueUnit} (hknown : unit ≠ .Unknown) :
    normalizeTorqueSpelling value = ascii unit.toString ↔
      value = ascii unit.toString ∨ ∃ spelling ∈ legacySpelling unit, value = ascii spelling := by
  unfold normalizeTorqueSpelling
  split_ifs with hmeter hmillimeter hcentimeter
  · subst hmeter
    cases unit <;> first | exact absurd rfl hknown | decide
  · subst hmillimeter
    cases unit <;> first | exact absurd rfl hknown | decide
  · subst hcentimeter
    cases unit <;> first | exact absurd rfl hknown | decide
  · refine ⟨.inl, fun h => h.elim id ?_⟩
    rintro ⟨spelling, hspelling, rfl⟩
    cases unit <;> cases hspelling <;> contradiction

/-- A torque unit passes exactly in one of its spellings. -/
theorem parseTorqueUnit_iff {value : List UInt8} {unit : TorqueUnit} :
    parseTorqueUnit value = .ok unit ↔ unit ≠ .Unknown ∧
      (value = ascii unit.toString ∨ ∃ spelling ∈ legacySpelling unit, value = ascii spelling) := by
  unfold parseTorqueUnit
  constructor
  · intro h
    split at h
    · cases h
    · cases h
    · rename_i hnot hunit
      cases h
      have hknown : unit ≠ .Unknown := hnot
      exact ⟨hknown, (normalizeTorqueSpelling_iff hknown).mp (torqueUnitFromString_eq_some_iff.mp hunit)⟩
  · rintro ⟨hknown, hvalue⟩
    rw [torqueUnitFromString_eq_some_iff.mpr ((normalizeTorqueSpelling_iff hknown).mpr hvalue)]
    split
    · rename_i heq
      cases heq
    · rename_i heq
      exact absurd (Option.some.inj heq) hknown
    · rename_i heq
      rw [Option.some.inj heq]

/-! ## Documents -/

/-- The fields of a document of the grammar. -/
theorem extractRequiredFields_of_accepted {f : Forest} (h : f.Accepted) :
    extractRequiredFields f.bytes = .ok f.field := by
  have hfits : f.Fits {} := f.fits_iff {} |>.mpr ⟨fun hcurrent => absurd rfl hcurrent, h.fieldsPlain, h.once⟩
  have hdone : (f.absorb {}).elements = [] := f.absorb_elements {}
  rw [extractRequiredFields, (scan_ok_iff hdone).mpr ⟨f, rfl, h.wellFormed, hfits, rfl⟩]
  exact Scan.finish_ok_iff.mpr ⟨hdone, fun index =>
    (field_absorb_iff hfits).mpr ⟨h.sized index, h.present index, rfl⟩⟩

/-- What the scanner takes is a document of the grammar. -/
theorem accepted_of_extractRequiredFields {xml : List UInt8} {fields : RequiredFields}
    (h : extractRequiredFields xml = .ok fields) :
    ∃ f : Forest, f.bytes = xml ∧ f.Accepted ∧ fields = f.field := by
  cases hscan : scan {} xml with
  | error what =>
    rw [extractRequiredFields, hscan] at h
    cases h
  | ok s =>
    rw [extractRequiredFields, hscan] at h
    obtain ⟨hdone, hfield⟩ := Scan.finish_ok_iff.mp h
    obtain ⟨f, rfl, hwell, hfits, rfl⟩ := (scan_ok_iff hdone).mp hscan
    have hvalue := fun index => (field_absorb_iff hfits).mp (hfield index)
    obtain ⟨-, hplain, honce⟩ := (f.fits_iff {}).mp hfits
    exact ⟨f, rfl, ⟨hwell, hplain, honce, fun index => (hvalue index).2.1,
      fun index => (hvalue index).1⟩, funext fun index => (hvalue index).2.2⟩

theorem parseSensorConfiguration_of_fields {xml : List UInt8} {fields : RequiredFields}
    (hfields : extractRequiredFields xml = .ok fields) (configuration : SensorConfiguration) :
    parseSensorConfiguration xml = .ok configuration ↔
      configuration.productName = String.ofList (characters (fields 0)) ∧
      Counts (fields 1) configuration.calibration.countsPerForceUnit ∧
      Counts (fields 2) configuration.calibration.countsPerTorqueUnit ∧
      fields 3 = ascii configuration.calibration.forceUnit.toString ∧
      (fields 4 = ascii configuration.calibration.torqueUnit.toString ∨
        ∃ spelling ∈ legacySpelling configuration.calibration.torqueUnit, fields 4 = ascii spelling) ∧
      configuration.calibration.Valid ∧ configuration.source = .Sensor ∧ configuration.revision = 1 := by
  obtain ⟨productName, ⟨countsPerForceUnit, countsPerTorqueUnit, forceUnit, torqueUnit⟩, source, revision⟩ :=
    configuration
  simp only [parseSensorConfiguration, hfields, bind_eq_ok_iff, parsePositiveCount_iff, parseForceUnit_iff,
    parseTorqueUnit_iff, validate_calibration_iff, pure, Except.pure, Except.ok.injEq]
  constructor
  · rintro ⟨_, rfl, _, ⟨hforce, -⟩, _, ⟨htorque, -⟩, _, ⟨hforceUnit, -⟩, _, ⟨-, htorqueUnit⟩, _, hvalid, h⟩
    cases h
    exact ⟨rfl, hforce, htorque, hforceUnit, htorqueUnit, hvalid, rfl, rfl⟩
  · rintro ⟨rfl, hforce, htorque, hforceUnit, htorqueUnit, hvalid, rfl, rfl⟩
    exact ⟨_, rfl, _, ⟨hforce, minimumCount_pos.trans_le hvalid.force⟩, _,
      ⟨htorque, minimumCount_pos.trans_le hvalid.torque⟩, _, ⟨hforceUnit, hvalid.forceUnit⟩, _,
      ⟨hvalid.torqueUnit, htorqueUnit⟩, (), hvalid, rfl⟩

/-- A document of the grammar is taken for what it says. -/
theorem parse_bytes_iff {f : Forest} (haccepted : f.Accepted) (configuration : SensorConfiguration) :
    parseSensorConfiguration f.bytes = .ok configuration ↔ Describes f configuration := by
  rw [parseSensorConfiguration_of_fields (extractRequiredFields_of_accepted haccepted)]
  constructor
  · rintro ⟨hname, hforce, htorque, hforceUnit, htorqueUnit, hvalid, hsource, hrevision⟩
    exact ⟨hname, hforce, htorque, hforceUnit, htorqueUnit, hvalid, hsource, hrevision⟩
  · intro h
    exact ⟨h.name, h.force, h.torque, h.forceUnit, h.torqueUnit, h.valid, h.source, h.revision⟩

/-- Only documents of the grammar are taken. -/
theorem document_of_parse {xml : List UInt8} {configuration : SensorConfiguration}
    (h : parseSensorConfiguration xml = .ok configuration) : ∃ f : Forest, f.bytes = xml ∧ f.Accepted := by
  obtain ⟨fields, hfields, -⟩ := bind_eq_ok_iff.mp h
  obtain ⟨f, hbytes, haccepted, -⟩ := accepted_of_extractRequiredFields hfields
  exact ⟨f, hbytes, haccepted⟩

/-- **The parser takes the documents that describe a sensor**, for what they say. -/
theorem parseSensorConfiguration_iff (xml : List UInt8) (configuration : SensorConfiguration) :
    parseSensorConfiguration xml = .ok configuration ↔
      ∃ f : Forest, f.bytes = xml ∧ f.Accepted ∧ Describes f configuration := by
  constructor
  · intro h
    obtain ⟨f, rfl, haccepted⟩ := document_of_parse h
    exact ⟨f, rfl, haccepted, (parse_bytes_iff haccepted configuration).mp h⟩
  · rintro ⟨f, rfl, haccepted, hdescribes⟩
    exact (parse_bytes_iff haccepted configuration).mpr hdescribes

end XmlConfig

end NetFT

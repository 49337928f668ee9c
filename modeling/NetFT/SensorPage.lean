/-
# NetFT.SensorPage — a page for every sensor.

The other direction of `parse_sensor_configuration`: the page of a sensor, in the layout that the tests
serve, with its counts printed in full.

* `accepted_pageOf`: a page is in the grammar of the scanner, with its texts as the fields.
* **`parse_page`**: it is read back as the sensor it was written for.
-/
import NetFT.SensorConfig
import Mathlib.Tactic.FinCases

namespace NetFT.XmlConfig

set_option autoImplicit false

open Library (Double)
open Library.Decimal (read_eq_some_iff isNumberCharacter mem_general length_general_le read_general
  ofRat_read_general)

/-! ## The layout -/

/-- The number in full, as a stream prints it. -/
def countText (counts : ℚ) : List UInt8 :=
  (Library.Format.general 17 counts).map fun c => c.toNat.toUInt8

/-- A required element with a text. -/
def fieldElement (index : TagIndex) (text : List UInt8) (rest : Forest) : Forest :=
  .element (requiredTag index) (.leaf (.text text) .nil) (slash :: requiredTag index) rest

/-- The texts of a page. -/
def fieldTexts (configuration : SensorConfiguration) : RequiredFields :=
  ![ascii configuration.productName, countText configuration.calibration.countsPerForceUnit,
    countText configuration.calibration.countsPerTorqueUnit,
    ascii configuration.calibration.forceUnit.toString, ascii configuration.calibration.torqueUnit.toString]

attribute [local instance] neZero_tags

/-- The layout of the pages in the tests. -/
def pageOf (texts : RequiredFields) : Forest :=
  .element (ascii "netft")
    (fieldElement 0 (texts 0) <| fieldElement 1 (texts 1) <| fieldElement 2 (texts 2) <|
      fieldElement 3 (texts 3) <| fieldElement 4 (texts 4) .nil)
    (ascii "/netft") .nil

/-- What may stand in a field: trimmed, without markup, and not too long. -/
structure Plain (text : List UInt8) : Prop where
  noMarkup : lt ∉ text
  trimmed : trimAsciiWhitespace text = text
  nonempty : text ≠ []
  short : text.length ≤ 128

/-! ## A page is in the grammar -/

/-- Without quotes and `>` a tag ends at its own `>`. -/
theorem tagContent_of_plain {content : List UInt8}
    (h : content.all (fun c => !isQuote c && c != gt) = true) : TagContent content := by
  induction content with
  | nil => exact .nil
  | cons c content ih =>
    rw [List.all_cons, Bool.and_eq_true, Bool.and_eq_true, Bool.not_eq_true', bne_iff_ne] at h
    exact .plain h.1.1 h.1.2 (ih h.2)

/-- A name without blanks and slashes is plain. -/
theorem plain_of_all {name : List UInt8}
    (h : name.all (fun c => !isAsciiWhitespace c && c != slash) = true) :
    ∀ c ∈ name, isAsciiWhitespace c = false ∧ c ≠ slash := by
  intro c hc
  have hplain := List.all_eq_true.mp h c hc
  rwa [Bool.and_eq_true, Bool.not_eq_true', bne_iff_ne] at hplain

/-- The required tags are start tags. -/
theorem startTag_requiredTag (index : TagIndex) : StartTag (requiredTag index) where
  balanced := tagContent_of_plain (by revert index; decide)
  not_bang := by revert index; decide
  not_question := by revert index; decide
  nonempty := by revert index; decide
  first := by revert index; decide
  last := by revert index; decide

/-- With a slash before them, end tags. -/
theorem endTag_requiredTag (index : TagIndex) : EndTag (slash :: requiredTag index) where
  balanced := tagContent_of_plain (by revert index; decide)
  not_bang := by revert index; decide
  not_question := by revert index; decide
  nonempty := by revert index; decide
  first := by revert index; decide
  name_nonempty := by revert index; decide
  name_plain := plain_of_all (by revert index; decide)

/-- The name of such a start tag. -/
theorem startName_requiredTag (index : TagIndex) : startName (requiredTag index) = requiredTag index := by
  revert index
  decide

theorem endName_requiredTag (index : TagIndex) : endName (slash :: requiredTag index) = requiredTag index := by
  revert index
  decide

section

variable (index : TagIndex) (text : List UInt8) (rest : Forest)

/-- The element of a field is well formed if its text has no `<`. -/
@[simp] theorem fieldElement_wellFormed :
    (fieldElement index text rest).WellFormed ↔ lt ∉ text ∧ rest.WellFormed := by
  simp only [fieldElement, Forest.WellFormed, Leaf.Valid, startName_requiredTag, endName_requiredTag,
    startTag_requiredTag, endTag_requiredTag, true_and, and_true]

/-- It opens its own tag. -/
@[simp] theorem fieldElement_openings :
    (fieldElement index text rest).openings = requiredTag index :: rest.openings := by
  simp [fieldElement, Forest.openings, startName_requiredTag]

@[simp] theorem fieldElement_fieldsPlain :
    (fieldElement index text rest).FieldsPlain ↔ rest.FieldsPlain := by
  simp [fieldElement, Forest.FieldsPlain, Forest.openings]

/-- Its text is that of its tag. -/
@[simp] theorem fieldElement_textOf (name : TagIndex) :
    (fieldElement index text rest).textOf (requiredTag name) =
      (if index = name then text else []) ++ rest.textOf (requiredTag name) := by
  simp [fieldElement, Forest.textOf, Forest.text, Leaf.content, startName_requiredTag,
    requiredTag_injective.eq_iff]

end

/-- The page opens the root and each of the five tags once. -/
theorem pageOf_openings (texts : RequiredFields) :
    (pageOf texts).openings = ascii "netft" :: (List.finRange 5).map requiredTag := by
  have hroot : startName (ascii "netft") = ascii "netft" := by decide
  simp only [pageOf, Forest.openings, fieldElement_openings, hroot, List.append_nil]
  rfl

/-- The text of each tag is the field's. -/
theorem pageOf_textOf (texts : RequiredFields) (index : TagIndex) :
    (pageOf texts).textOf (requiredTag index) = texts index := by
  have hroot : startName (ascii "netft") ≠ requiredTag index := by
    revert index
    decide
  simp only [pageOf, Forest.textOf, fieldElement_textOf, if_neg hroot, List.nil_append, List.append_nil]
  fin_cases index <;> simp

/-- A page is in the grammar, with its texts as the fields. -/
theorem accepted_pageOf {texts : RequiredFields} (h : ∀ index, Plain (texts index)) :
    (pageOf texts).Accepted ∧ (pageOf texts).field = texts := by
  have hmem : ∀ index, requiredTag index ∈ (pageOf texts).openings := by
    intro index
    rw [pageOf_openings]
    exact List.mem_cons_of_mem _ (List.mem_map_of_mem (List.mem_finRange index))
  refine ⟨⟨?_, ?_, ?_, fun index _ => hmem index, ?_⟩, ?_⟩
  · have hstart : StartTag (ascii "netft") :=
      ⟨⟨tagContent_of_plain (by decide), by decide, by decide, by decide⟩, by decide, by decide⟩
    have hstop : EndTag (ascii "/netft") :=
      ⟨⟨tagContent_of_plain (by decide), by decide, by decide, by decide⟩, by decide, by decide,
        plain_of_all (by decide)⟩
    refine ⟨hstart, hstop, by decide, ?_, trivial⟩
    simp only [fieldElement_wellFormed]
    exact ⟨(h 0).noMarkup, (h 1).noMarkup, (h 2).noMarkup, (h 3).noMarkup, (h 4).noMarkup, trivial⟩
  · have hroot : ¬ ∃ index, startName (ascii "netft") = requiredTag index := by decide
    simp [pageOf, Forest.FieldsPlain, hroot]
  · rw [pageOf_openings]
    decide
  · intro index _
    rw [pageOf_textOf, (h index).trimmed]
    exact ⟨List.length_pos_of_ne_nil (h index).nonempty, (h index).short⟩
  · funext index
    rw [Forest.field, if_pos (hmem index), pageOf_textOf, (h index).trimmed]

/-! ## Texts of fields -/

/-- Nothing is trimmed where there is no blank. -/
theorem trim_of_none {text : List UInt8} (h : ∀ c ∈ text, isAsciiWhitespace c = false) :
    trimAsciiWhitespace text = text := by
  have hfront : text.dropWhile isAsciiWhitespace = text := by
    apply List.dropWhile_eq_self_iff.mpr
    intro hpos
    simp [h _ (List.getElem_mem hpos)]
  unfold trimAsciiWhitespace
  rw [hfront]
  apply List.rdropWhile_eq_self_iff.mpr
  intro hne
  simp [h _ (List.getLast_mem hne)]

theorem isDigit_toNat {c : Char} (h : c.isDigit = true) : 48 ≤ c.toNat ∧ c.toNat ≤ 57 ∧ c.toNat < 256 := by
  rw [Char.isDigit, Bool.and_eq_true, decide_eq_true_eq, decide_eq_true_eq] at h
  have hlo : 48 ≤ c.toNat := UInt32.le_iff_toNat_le.mp h.1
  have hhi : c.toNat ≤ 57 := UInt32.le_iff_toNat_le.mp h.2
  omega

/-- The characters of a number are bytes, neither blanks nor `<`. -/
theorem numberCharacter_byte {c : Char} (h : isNumberCharacter c = true) :
    c.toNat < 256 ∧ c.toNat ≠ 0x3c ∧ 0x20 < c.toNat := by
  simp only [isNumberCharacter, Bool.or_eq_true, decide_eq_true_eq] at h
  obtain (((hdigit | rfl) | rfl) | rfl) | rfl := h
  · have := isDigit_toNat hdigit
    omega
  all_goals decide

theorem toNat_byte {c : Char} (h : c.toNat < 256) : c.toNat.toUInt8.toNat = c.toNat := by
  rw [Nat.toUInt8, UInt8.toNat_ofNat']
  exact Nat.mod_eq_of_lt h

/-- Characters of one byte are read back. -/
theorem characters_bytes {text : List Char} (h : ∀ c ∈ text, c.toNat < 256) :
    characters (text.map fun c => c.toNat.toUInt8) = text := by
  rw [characters, List.map_map]
  conv_rhs => rw [← List.map_id text]
  apply List.map_congr_left
  intro c hc
  show Char.ofNat c.toNat.toUInt8.toNat = c
  rw [toNat_byte (h c hc), Char.ofNat_toNat]

/-- The blanks are the least bytes. -/
theorem isAsciiWhitespace_le {b : UInt8} (h : isAsciiWhitespace b = true) : b.toNat ≤ 0x20 := by
  simp only [isAsciiWhitespace, Bool.or_eq_true, beq_iff_eq] at h
  rcases h with ((((rfl | rfl) | rfl) | rfl) | rfl) | rfl <;> decide

/-- The text of a count can stand in a page. -/
theorem plain_countText {counts : ℚ} (hexponent : (Int.log 10 |counts|).natAbs < 999) :
    Plain (countText counts) where
  noMarkup := by
    intro hmem
    obtain ⟨c, hc, hbyte⟩ := List.mem_map.mp hmem
    obtain ⟨hsmall, hne, -⟩ := numberCharacter_byte (mem_general (by norm_num) hc)
    rw [← toNat_byte hsmall, hbyte] at hne
    exact hne rfl
  trimmed := by
    apply trim_of_none
    intro b hb
    obtain ⟨c, hc, rfl⟩ := List.mem_map.mp hb
    obtain ⟨hsmall, -, hvisible⟩ := numberCharacter_byte (mem_general (by norm_num) hc)
    by_contra hspace
    have := isAsciiWhitespace_le (Bool.not_eq_false _ ▸ hspace)
    rw [toNat_byte hsmall] at this
    omega
  nonempty := by
    intro hnil
    have hread := read_general (show 0 < 17 by norm_num) counts
    rw [List.map_eq_nil_iff.mp hnil] at hread
    cases hread
  short := by
    rw [countText, List.length_map]
    exact (length_general_le (by norm_num) hexponent).trans (by norm_num)

/-- The text of a count that is a double spells it. -/
theorem counts_countText {counts : ℚ} (hpos : 0 < counts) (hdouble : Double.ofRat counts = .finite counts) :
    Counts (countText counts) counts := by
  constructor
  · -- A positive number begins with a digit.
    obtain ⟨whole, fraction, exponent, hshape, hwhole, -, -⟩ :=
      Library.Format.general_shape (show 0 < 17 by norm_num) counts
    have hfirst : ∃ c rest, whole = c :: rest ∧ c.isDigit = true := by
      rcases hwhole with rfl | ⟨hne, -, hdigits⟩
      · exact ⟨_, _, rfl, rfl⟩
      · obtain ⟨c, rest, rfl⟩ := List.exists_cons_of_ne_nil hne
        exact ⟨c, rest, rfl, hdigits c List.mem_cons_self⟩
    obtain ⟨c, rest, rfl, hdigit⟩ := hfirst
    rw [countText, hshape, Library.Format.signed, if_neg (not_lt.mpr hpos.le), List.cons_append, List.map_cons,
      List.head?_cons]
    intro hplus
    have hbyte := congrArg UInt8.toNat (Option.some.inj hplus)
    rw [toNat_byte (isDigit_toNat hdigit).2.2] at hbyte
    have := (isDigit_toNat hdigit).1
    have hvalue : (0x2b : UInt8).toNat = 43 := rfl
    omega
  · have hcharacters : characters (countText counts) = Library.Format.general 17 counts :=
      characters_bytes fun c hc => (numberCharacter_byte (mem_general (by norm_num) hc)).1
    have hread := ofRat_read_general hdouble
    rw [← hcharacters] at hread
    obtain ⟨q, hq, hvalue⟩ := Option.map_eq_some_iff.mp hread
    obtain ⟨n, hn, rfl⟩ := read_eq_some_iff.mp hq
    exact ⟨n, hn, hvalue⟩

theorem maxFinite_lt_pow : Double.maxFinite < (10 : ℚ) ^ 400 := by
  have hpow : 2 ^ 1024 < 10 ^ 400 := by decide +kernel
  exact Double.maxFinite_lt.trans (by exact_mod_cast hpow)

/-- A safe count is not below the reciprocal of the largest double. -/
theorem inv_maxFinite_le : 1 / Double.maxFinite ≤ minimumCount := by
  rw [minimumCount, div_mul_eq_mul_div]
  apply div_le_div_of_nonneg_right _ maxFinite_pos.le
  norm_num

/-- The exponents of the counts of a valid calibration. -/
theorem log_of_valid {counts : ℚ} (hmin : minimumCount ≤ counts)
    (hdouble : Double.ofRat counts = .finite counts) : (Int.log 10 |counts|).natAbs < 999 := by
  have hpos := minimumCount_pos.trans_le hmin
  have hmax := (Double.eq_mul_of_ofRat hdouble).1
  rw [abs_of_pos hpos] at hmax ⊢
  have hlow : ((10 : ℕ) : ℚ) ^ (-400 : ℤ) ≤ counts := by
    calc ((10 : ℕ) : ℚ) ^ (-400 : ℤ) = 1 / (10 : ℚ) ^ 400 := by
          rw [zpow_neg, one_div, Nat.cast_ofNat]
          rfl
      _ ≤ 1 / Double.maxFinite := one_div_le_one_div_of_le maxFinite_pos maxFinite_lt_pow.le
      _ ≤ minimumCount := inv_maxFinite_le
      _ ≤ counts := hmin
  have hhigh : counts < ((10 : ℕ) : ℚ) ^ (400 : ℤ) := hmax.trans_lt (by exact_mod_cast maxFinite_lt_pow)
  have hge := (Int.zpow_le_iff_le_log (by norm_num) hpos).mp hlow
  have hlt := (Int.lt_zpow_iff_log_lt (by norm_num) hpos).mp hhigh
  omega

/-! ## Round trip -/

/-- A sensor whose page can be written, with counts that are doubles. -/
structure Printable (configuration : SensorConfiguration) : Prop where
  narrow : (configuration.productName.toList.all fun c => c.toNat < 256) = true
  name : Plain (ascii configuration.productName)
  valid : configuration.calibration.Valid
  force : Double.ofRat configuration.calibration.countsPerForceUnit =
    .finite configuration.calibration.countsPerForceUnit
  torque : Double.ofRat configuration.calibration.countsPerTorqueUnit =
    .finite configuration.calibration.countsPerTorqueUnit

/-- The five texts can stand in a page. -/
theorem plain_fieldTexts {configuration : SensorConfiguration} (h : Printable configuration)
    (index : TagIndex) : Plain (fieldTexts configuration index) := by
  have hforce := plain_countText (log_of_valid h.valid.force h.force)
  have htorque := plain_countText (log_of_valid h.valid.torque h.torque)
  match index with
  | 0 => exact h.name
  | 1 => exact hforce
  | 2 => exact htorque
  | 3 =>
    show Plain (ascii configuration.calibration.forceUnit.toString)
    cases configuration.calibration.forceUnit <;> exact ⟨by decide, by decide, by decide, by decide⟩
  | 4 =>
    show Plain (ascii configuration.calibration.torqueUnit.toString)
    cases configuration.calibration.torqueUnit <;> exact ⟨by decide, by decide, by decide, by decide⟩

/-- The page of a configuration describes it. -/
theorem describes_pageOf {configuration : SensorConfiguration} (h : Printable configuration) :
    Describes (pageOf (fieldTexts configuration)) { configuration with source := .Sensor, revision := 1 } := by
  have hfield := (accepted_pageOf (plain_fieldTexts h)).2
  have hnarrow : ∀ c ∈ configuration.productName.toList, c.toNat < 256 :=
    fun c hc => of_decide_eq_true (List.all_eq_true.mp h.narrow c hc)
  have hname : configuration.productName = String.ofList (characters (ascii configuration.productName)) := by
    rw [ascii, characters_bytes hnarrow, String.ofList_toList]
  have hforce := counts_countText (minimumCount_pos.trans_le h.valid.force) h.force
  have htorque := counts_countText (minimumCount_pos.trans_le h.valid.torque) h.torque
  constructor
  all_goals try rw [hfield]
  · exact hname
  · exact hforce
  · exact htorque
  · rfl
  · exact .inl rfl
  · exact h.valid
  · rfl
  · rfl

/-- **A page is read back as the sensor it was written for**, every number exactly. -/
theorem parse_page (configuration : SensorConfiguration) (h : Printable configuration) :
    parseSensorConfiguration (pageOf (fieldTexts configuration)).bytes =
      .ok { configuration with source := .Sensor, revision := 1 } :=
  (parse_bytes_iff (accepted_pageOf (plain_fieldTexts h)).1 _).mpr (describes_pageOf h)

/-- A tenth of a count, for which a double stands that no short decimal number is. -/
def tenthConfiguration : SensorConfiguration :=
  { productName := "Net F/T"
    calibration :=
      { countsPerForceUnit := 3602879701896397 / 36028797018963968, countsPerTorqueUnit := 1000000,
        forceUnit := .Newton, torqueUnit := .NewtonMeter } }

theorem printable_tenth : Printable tenthConfiguration where
  narrow := by decide
  name := ⟨by decide, by decide, by decide, by decide⟩
  valid := ⟨by decide +kernel, by decide +kernel, by decide, by decide⟩
  force := by decide +kernel
  torque := by decide +kernel

theorem parse_page_tenth :
    parseSensorConfiguration (pageOf (fieldTexts tenthConfiguration)).bytes = .ok tenthConfiguration :=
  parse_page tenthConfiguration printable_tenth

end NetFT.XmlConfig

/-
# NetFT.Plugin.Names — the names of a plugin instance (`netft_hardware_interface.cpp`).

The auxiliary node and the default bias service of a sensor are named after a token made from the name
of the sensor.  A name that is a ROS name token stays as it is, unless it looks like an encoded one;
every other name is written in hexadecimal behind a reserved prefix.

* `isRosNameToken_iff`: the check, and `RosToken`, what it checks for.
* **`names_safe`**: the token is a ROS name token, and different sensors have different names.
-/
import NetFT.Library.Hex
import NetFT.XmlConfig

namespace NetFT.Plugin

set_option autoImplicit false

open Library
open XmlConfig (ascii)

/-! ## The names -/

/-- What an encoded name begins with. -/
def kEncodedNamePrefix : List UInt8 := ascii "netft_encoded_"

def kLowerHex : List UInt8 := ascii "0123456789abcdef"

def underscore : UInt8 := 0x5f

def isAsciiLetter (character : UInt8) : Bool :=
  (0x61 ≤ character && character ≤ 0x7a) || (0x41 ≤ character && character ≤ 0x5a)

def isAsciiDigit (character : UInt8) : Bool := 0x30 ≤ character && character ≤ 0x39

/-- A letter or underscore, then letters, digits and underscores. -/
def isRosNameToken (sensorName : List UInt8) : Bool :=
  match sensorName with
  | [] => false
  | first :: _ =>
    if !isAsciiLetter first && first != underscore then false
    else sensorName.all fun character =>
      !(!isAsciiLetter character && !isAsciiDigit character && character != underscore)

/-- A name that is a token already stays, unless it looks encoded; every other one is encoded. -/
def collisionSafeNameToken (sensorName : List UInt8) : List UInt8 :=
  if isRosNameToken sensorName && !kEncodedNamePrefix.isPrefixOf sensorName then sensorName
  else kEncodedNamePrefix ++ Hex.encode kLowerHex sensorName

/-- The name of the auxiliary node. -/
def auxiliaryNodeName (rosNameToken : List UInt8) : List UInt8 :=
  ascii "netft_" ++ rosNameToken ++ ascii "_hardware"

/-- The bias service of `on_init`: the parameter, or the default name. -/
def biasServiceName (parameter : Option (List UInt8)) (rosNameToken : List UInt8) : List UInt8 :=
  match parameter with
  | none => ascii "/" ++ rosNameToken ++ ascii "/bias"
  | some biasService => biasService

/-! ## ROS name tokens -/

/-- A character that a token may start with. -/
def StartsToken (character : UInt8) : Prop :=
  0x61 ≤ character ∧ character ≤ 0x7a ∨ 0x41 ≤ character ∧ character ≤ 0x5a ∨ character = underscore

/-- A character of a token. -/
def InToken (character : UInt8) : Prop :=
  StartsToken character ∨ 0x30 ≤ character ∧ character ≤ 0x39

/-- Letters, digits and underscores, not empty, and no digit at the start. -/
def RosToken (token : List UInt8) : Prop :=
  (∃ first rest, token = first :: rest ∧ StartsToken first) ∧ ∀ character ∈ token, InToken character

theorem startsToken_iff (character : UInt8) :
    StartsToken character ↔ isAsciiLetter character = true ∨ character = underscore := by
  simp only [StartsToken, isAsciiLetter, Bool.or_eq_true, Bool.and_eq_true, decide_eq_true_eq, or_assoc]

theorem inToken_iff (character : UInt8) : InToken character ↔
    (isAsciiLetter character = true ∨ character = underscore) ∨ isAsciiDigit character = true := by
  simp only [InToken, startsToken_iff, isAsciiDigit, Bool.and_eq_true, decide_eq_true_eq]

/-- The scan accepts exactly the tokens. -/
theorem isRosNameToken_iff (sensorName : List UInt8) :
    isRosNameToken sensorName = true ↔ RosToken sensorName := by
  cases sensorName with
  | nil =>
    refine iff_of_false (by simp [isRosNameToken]) ?_
    rintro ⟨⟨first, rest, h, -⟩, -⟩
    cases h
  | cons first rest =>
    have hfirst : (!isAsciiLetter first && first != underscore) = true ↔ ¬ StartsToken first := by
      rw [startsToken_iff]
      simp
    have hall : ((first :: rest).all fun character =>
        !(!isAsciiLetter character && !isAsciiDigit character && character != underscore)) = true ↔
          ∀ character ∈ first :: rest, InToken character := by
      simp only [List.all_eq_true, inToken_iff]
      refine forall₂_congr fun character _ => ?_
      cases isAsciiLetter character <;> cases isAsciiDigit character <;> simp
    rw [isRosNameToken]
    by_cases hstarts : StartsToken first
    · rw [if_neg fun h => hfirst.mp h hstarts, hall]
      exact ⟨fun h => ⟨⟨first, rest, rfl, hstarts⟩, h⟩, fun h => h.2⟩
    · rw [if_pos (hfirst.mpr hstarts)]
      refine iff_of_false (by simp) ?_
      rintro ⟨⟨first', rest', h, hstarts'⟩, -⟩
      cases h
      exact hstarts hstarts'

/-! ## The token -/

variable {sensorName : List UInt8}

/-- What stays as it is. -/
theorem collisionSafeNameToken_of_ros (h : RosToken sensorName)
    (hbegins : ¬ kEncodedNamePrefix <+: sensorName) :
    collisionSafeNameToken sensorName = sensorName := by
  rw [← List.isPrefixOf_iff_prefix, Bool.not_eq_true] at hbegins
  rw [collisionSafeNameToken, (isRosNameToken_iff sensorName).mpr h, hbegins]
  rfl

/-- A token is the name, or the encoded name. -/
theorem collisionSafeNameToken_cases (sensorName : List UInt8) :
    (RosToken sensorName ∧ ¬ kEncodedNamePrefix <+: sensorName ∧
        collisionSafeNameToken sensorName = sensorName) ∨
      collisionSafeNameToken sensorName = kEncodedNamePrefix ++ Hex.encode kLowerHex sensorName := by
  by_cases h : RosToken sensorName ∧ ¬ kEncodedNamePrefix <+: sensorName
  · exact .inl ⟨h.1, h.2, collisionSafeNameToken_of_ros h.1 h.2⟩
  · right
    rw [collisionSafeNameToken, if_neg]
    rw [Bool.and_eq_true, isRosNameToken_iff, Bool.not_eq_true', ← Bool.not_eq_true,
      List.isPrefixOf_iff_prefix]
    exact h

theorem kLowerHex_inToken {digit : UInt8} (h : digit ∈ kLowerHex) : InToken digit := by
  rw [inToken_iff]
  revert digit
  decide +kernel

theorem prefix_inToken {character : UInt8} (h : character ∈ kEncodedNamePrefix) :
    InToken character := by
  rw [inToken_iff]
  revert character
  decide +kernel

/-- An encoded name is a token. -/
theorem rosToken_encoded (sensorName : List UInt8) :
    RosToken (kEncodedNamePrefix ++ Hex.encode kLowerHex sensorName) := by
  refine ⟨⟨0x6e, _, rfl, (startsToken_iff _).mpr (by decide)⟩, fun character hmem => ?_⟩
  rcases List.mem_append.mp hmem with hbegins | hhex
  · exact prefix_inToken hbegins
  · exact kLowerHex_inToken (Hex.mem_encode rfl hhex)

/-- **The token is always a ROS name token.** -/
theorem rosToken_collisionSafeNameToken (sensorName : List UInt8) :
    RosToken (collisionSafeNameToken sensorName) := by
  rcases collisionSafeNameToken_cases sensorName with ⟨h, -, heq⟩ | heq
  · rwa [heq]
  · rw [heq]
    exact rosToken_encoded sensorName

/-- **Different names have different tokens.** -/
theorem collisionSafeNameToken_injective : Function.Injective collisionSafeNameToken := by
  intro s t h
  rcases collisionSafeNameToken_cases s with ⟨-, hs, heq⟩ | heq <;>
    rcases collisionSafeNameToken_cases t with ⟨-, ht, heq'⟩ | heq' <;> rw [heq, heq'] at h
  · exact h
  · exact absurd (h ▸ List.prefix_append _ _) hs
  · exact absurd (h ▸ List.prefix_append _ _) ht
  · exact Hex.encode_injective (by decide) rfl (List.append_cancel_left h)

/-- What holds of the names of all sensors. -/
structure NamesSafe : Prop where
  token : ∀ s t, collisionSafeNameToken s = collisionSafeNameToken t → s = t
  service : ∀ s t, s ≠ t → biasServiceName none (collisionSafeNameToken s) ≠
    biasServiceName none (collisionSafeNameToken t)
  node : ∀ s t, s ≠ t → auxiliaryNodeName (collisionSafeNameToken s) ≠
    auxiliaryNodeName (collisionSafeNameToken t)
  wellFormed : ∀ s, RosToken (collisionSafeNameToken s)
  preserved : ∀ s, RosToken s → ¬ kEncodedNamePrefix <+: s → collisionSafeNameToken s = s

/-- **Instance names never collide.** -/
theorem names_safe : NamesSafe := by
  -- both names put the token between two fixed texts
  have hbetween : ∀ {front back s t : List UInt8}, s ≠ t →
      front ++ collisionSafeNameToken s ++ back ≠ front ++ collisionSafeNameToken t ++ back :=
    fun hne heq => hne (collisionSafeNameToken_injective
      (List.append_cancel_left (List.append_cancel_right heq)))
  exact ⟨fun s t h => collisionSafeNameToken_injective h, fun s t => hbetween, fun s t => hbetween,
    rosToken_collisionSafeNameToken, fun s h hbegins => collisionSafeNameToken_of_ros h hbegins⟩

example : collisionSafeNameToken (ascii "tool-ft") = ascii "netft_encoded_746f6f6c2d6674" := by decide

end NetFT.Plugin

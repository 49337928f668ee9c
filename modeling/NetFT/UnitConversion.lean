/-
# NetFT.UnitConversion — samples in SI units (`ros/unit_conversion.cpp`).

A sample is scaled to newtons and newton metres; an unknown unit or a value that has no finite SI
representation is refused with `std::invalid_argument`.
-/
import NetFT.Types

namespace NetFT

open Library (Double)

/-- A sample in newtons and newton metres. -/
structure SiSample where
  rdtSequence : UInt32 := 0
  ftSequence : UInt32 := 0
  status : UInt32 := 0
  force : Triple Double := ⟨.finite 0, .finite 0, .finite 0⟩
  torque : Triple Double := ⟨.finite 0, .finite 0, .finite 0⟩
  configurationRevision : Nat := 0
  receivedAt : TimePoint := 0
  deriving DecidableEq, Repr

/-- All six values are finite. -/
def sampleIsFinite (sample : SiSample) : Bool :=
  sample.force.all Double.isFinite && sample.torque.all Double.isFinite

/-- The factors are decimal literals: the doubles nearest to them. -/
def forceScaleToNewtons : ForceUnit → Except String Double
  | .Newton => .ok (.ofRat 1)
  | .KiloNewton => .ok (.ofRat 1000)
  | .PoundForce => .ok (.ofRat (44482216152605 / 10000000000000))
  | .KiloPoundForce => .ok (.ofRat (44482216152605 / 10000000000))
  | .KilogramForce => .ok (.ofRat (980665 / 100000))
  | .Unknown => .error "Unknown force unit"

/-- The factor of each torque unit, as the double nearest to the literal. -/
def torqueScaleToNewtonMetres : TorqueUnit → Except String Double
  | .NewtonMeter => .ok (.ofRat 1)
  | .NewtonMillimeter => .ok (.ofRat (1 / 1000))
  | .PoundForceInch => .ok (.ofRat (1129848290276167 / 10000000000000000))
  | .PoundForceFoot => .ok (.ofRat (13558179483314004 / 10000000000000000))
  | .KilogramForceCentimeter => .ok (.ofRat (980665 / 10000000))
  | .KiloNewtonMeter => .ok (.ofRat 1000)
  | .Unknown => .error "Unknown torque unit"

/-- One value times its factor; a product that is not finite is an error. -/
def checkedScale (value scale : Double) : Except String Double :=
  if !value.isFinite ||
      (Double.finite 1).lt scale && ((Double.finite Double.maxFinite).div scale).lt value.abs then
    .error "measurement cannot be represented in SI units"
  else
    let result := value.mul scale
    if result.isFinite then .ok result
    else .error "measurement cannot be represented in SI units"

/-- One axis of the force and one of the torque at a time, as the loop of `to_si_sample` goes. -/
def scaleTriples (force torque : Triple Double) (forceScale torqueScale : Double) :
    Except String (Triple Double × Triple Double) := do
  let fx ← checkedScale force.x forceScale
  let tx ← checkedScale torque.x torqueScale
  let fy ← checkedScale force.y forceScale
  let ty ← checkedScale torque.y torqueScale
  let fz ← checkedScale force.z forceScale
  let tz ← checkedScale torque.z torqueScale
  return (⟨fx, fy, fz⟩, ⟨tx, ty, tz⟩)

/-- `to_si_sample`: force and torque, each with the factor of its unit. -/
def toSiSample (sample : Sample) : Except String SiSample := do
  let forceScale ← forceScaleToNewtons sample.forceUnit
  let torqueScale ← torqueScaleToNewtonMetres sample.torqueUnit
  let (force, torque) ← scaleTriples sample.force sample.torque forceScale torqueScale
  return {
    rdtSequence := sample.rdtSequence
    ftSequence := sample.ftSequence
    status := sample.status
    force
    torque
    configurationRevision := sample.configurationRevision
    receivedAt := sample.receivedAt }

end NetFT

/-
# NetFT.Status — severity and text of the device status word (`status.cpp`).
-/
import Mathlib.Data.Nat.Notation

namespace NetFT

/-- How serious a status word is. -/
inductive StatusSeverity where
  | Ok | Warn | Error
  deriving DecidableEq, Repr

/-- The error-summary bit with the monitor-condition latch and nothing else is a warning; any other
non-zero word is an error. -/
def classifyStatus (status : UInt32) : StatusSeverity :=
  if status = 0 then .Ok
  else if status = 0x80010000 then .Warn
  else .Error

/-- The table of status bits, with their names. -/
def kStatusBits : List (UInt32 × String) := [
  (0x80000000, "error summary"),
  (0x40000000, "CPU or RAM error"),
  (0x20000000, "digital board error"),
  (0x10000000, "analog board error"),
  (0x08000000, "serial link communication error"),
  (0x04000000, "program memory verification error"),
  (0x02000000, "halted due to configuration errors"),
  (0x01000000, "settings validation error"),
  (0x00800000, "configuration incompatible with calibration"),
  (0x00400000, "network communication failure"),
  (0x00200000, "CAN communication error"),
  (0x00100000, "RDT communication error"),
  (0x00080000, "EtherNet/IP protocol failure"),
  (0x00040000, "DeviceNet protocol failure"),
  (0x00020000, "transducer saturation or A/D error"),
  (0x00010000, "monitor condition latched"),
  (0x00004000, "watchdog timeout error"),
  (0x00002000, "stack check error"),
  (0x00001000, "serial EEPROM I2C failure"),
  (0x00000800, "serial flash SPI failure"),
  (0x00000400, "analog board watchdog timeout"),
  (0x00000200, "excessive strain gage excitation current"),
  (0x00000100, "insufficient strain gage excitation current"),
  (0x00000080, "artificial analog ground out of range"),
  (0x00000040, "analog board power supply too high"),
  (0x00000020, "analog board power supply too low"),
  (0x00000010, "serial link data unavailable"),
  (0x00000008, "reference voltage or power monitoring error"),
  (0x00000004, "internal temperature error"),
  (0x00000002, "HTTP protocol failure")]

/-- The names of the set bits of a status word, joined by commas. -/
def decodeStatus (status : UInt32) : String :=
  if status = 0 then "healthy"
  else
    kStatusBits.foldl (fun result bit =>
      if status &&& bit.1 ≠ 0 then (if result.isEmpty then result else result ++ ", ") ++ bit.2
      else result) ""

end NetFT

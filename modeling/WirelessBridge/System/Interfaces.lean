import WirelessBridge.Lib.Text

/-!
# What the components share

The levels of an error report, and the view that a reconnectable component gives of itself. Clock
readings and durations (`HBE::SysTimeMsec`) are integers, in milliseconds of the steady clock.
-/

namespace HBE

/-- `std::chrono::seconds` of a 32-bit count, in milliseconds. -/
def seconds (n : UInt32) : ℤ := 1000 * n.toNat

lemma seconds_nonneg (n : UInt32) : 0 ≤ seconds n := by
  simp only [seconds]
  omega

end HBE

namespace System

inductive ErrorLevel where
  | userLevel | criticalLevel | systemLevel | componentLevel
  deriving DecidableEq

inductive EConnectionStatus where
  | disconnected | connecting | connected
  deriving DecidableEq

structure ConnectionInfo where
  connectionAttempt : UInt32 := 4
  connectionTimeout : ℤ := 1000
  connectionCycleTimeout : ℤ := 5000
  deriving DecidableEq

end System

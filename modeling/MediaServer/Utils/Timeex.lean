import Mathlib.Algebra.Group.Int.Defs
import MediaServer.Utils.DataBuffer

/-!
# NTP timestamps

`utils/timeex.hpp`: seconds and a fraction of a second in units of 2^-32, against
milliseconds.

The source calculates in floating point.  A fraction times 1000 stays below 2^53, so that
the way to milliseconds is exact.  On the way back, a quotient by 1000 that is no whole
number of units is far enough away from the next one, so that the fraction is the exact one
rounded down.
-/

namespace MediaServer

/-- `NTP_TIMESTAMP`. -/
structure NtpTimestamp where
  ntpSec : UInt32
  ntpFrac : UInt32
  deriving DecidableEq, Repr

/-- The units of the fraction of an NTP time in a second. -/
def NTP_FRACT_UNIT : Int := 2 ^ 32

/-- The number that a conversion to `uint32_t` stores. -/
def asUint32 (n : Int) : UInt32 := UInt32.ofNat (n % 2 ^ 32).toNat

/-- `std::round` of a quotient with a positive divisor: halves go away from zero. -/
def roundDiv (a b : Int) : Int :=
  if 0 ≤ a then (2 * a + b) / (2 * b) else -((2 * -a + b) / (2 * b))

/-- `millisec_to_ntp`.  A negative fraction does not convert to an unsigned number. -/
def millisecToNtp (ms : Int) : Except Fault NtpTimestamp :=
  if ms.tmod 1000 < 0 then .error .overflow
  else .ok ⟨asUint32 (ms.tdiv 1000), asUint32 (ms.tmod 1000 * NTP_FRACT_UNIT / 1000)⟩

/-- `ntp_to_millisec`. -/
def ntpToMillisec (ntp : NtpTimestamp) : Int :=
  (ntp.ntpSec.toNat : Int) * 1000 + roundDiv ((ntp.ntpFrac.toNat : Int) * 1000) NTP_FRACT_UNIT

end MediaServer

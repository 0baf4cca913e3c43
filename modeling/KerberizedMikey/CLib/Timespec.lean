import Mathlib.Algebra.Ring.Int.Defs
import Mathlib.Tactic.Common

/-!
# Signed arithmetic and `timespec`

`long z` is a C expression of type `long` with the value `z`: it has one only inside
the 64 bits.  A `timespec` is normalised when its nanoseconds are below a second, and
then the order of the seconds and nanoseconds is that of `nanos`.
-/

namespace CLib

/-- The value of a `long` expression; `none` where it overflows. -/
def long (z : Int) : Option Int64 :=
  if -2 ^ 63 ≤ z ∧ z < 2 ^ 63 then some (Int64.ofInt z) else none

theorem long_of_range {z : Int} (h1 : -2 ^ 63 ≤ z) (h2 : z < 2 ^ 63) :
    ∃ x, long z = some x ∧ x.toInt = z :=
  ⟨Int64.ofInt z, if_pos ⟨h1, h2⟩, Int64.toInt_ofInt_of_le h1 h2⟩

/-- The sum or difference of small longs. -/
theorem long_of_small {z : Int} (h1 : -10 ^ 18 ≤ z) (h2 : z ≤ 10 ^ 18) :
    ∃ x, long z = some x ∧ x.toInt = z :=
  long_of_range (by omega) (by omega)

structure Timespec where
  tvSec : Int64
  tvNsec : Int64
deriving DecidableEq

namespace Timespec

/-- What `clock_gettime` fills in. -/
structure Valid (t : Timespec) : Prop where
  nonneg : 0 ≤ t.tvNsec.toInt
  lt : t.tvNsec.toInt < 10 ^ 9

def nanos (t : Timespec) : Int := t.tvSec.toInt * 10 ^ 9 + t.tvNsec.toInt

theorem tvSec_le {start stop : Timespec} (hs : start.Valid) (he : stop.Valid)
    (h : start.nanos ≤ stop.nanos) : start.tvSec.toInt ≤ stop.tvSec.toInt := by
  have := hs.nonneg
  have := he.lt
  unfold nanos at h
  omega

/-- With fewer nanoseconds, a later time has more seconds. -/
theorem tvSec_lt {start stop : Timespec} (h : start.nanos ≤ stop.nanos)
    (hn : stop.tvNsec.toInt < start.tvNsec.toInt) : start.tvSec.toInt < stop.tvSec.toInt := by
  unfold nanos at h
  omega

end Timespec

end CLib

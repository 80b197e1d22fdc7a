import Mathlib.Tactic

/-!
# Instants and durations as the Go code computes with them

Instants and durations are integers: an instant is its distance to the Unix
epoch in nanoseconds. `time.Duration` is an `int64`, so the two operations that
leave its range are modelled as the runtime has them: `Time.Sub` saturates
(`timeSub`) and negating the least duration gives the least duration back
(`durNeg`).
-/

namespace Kerberos

def second : ℤ := 1000000000

def minute : ℤ := 60 * second

def hour : ℤ := 60 * minute

def maxDuration : ℤ := 2 ^ 63 - 1

def minDuration : ℤ := -2 ^ 63

/-- `time.Time{}`, the first instant of year 1: what `IsZero` tests for. -/
def zeroTime : ℤ := -62135596800 * second

/-- `t.Sub(u)`. -/
def timeSub (t u : ℤ) : ℤ := max minDuration (min maxDuration (t - u))

/-- `-d` on `int64`. -/
def durNeg (d : ℤ) : ℤ := if d = minDuration then minDuration else -d

/-- `if d < 0 { d = -d }`. -/
def durAbs (d : ℤ) : ℤ := if d < 0 then durNeg d else d

/-- `t.Truncate(time.Second)`. -/
def truncSec (t : ℤ) : ℤ := t - t % second

/-- `withinSkew` of the KDC and of the acceptor: the distance of `value` to the
clock is at most `skew`. -/
def withinSkew (skew : ℤ) (now value : ℤ) : Bool :=
  let difference := timeSub value now
  decide ((if difference < 0 then durNeg difference else difference) ≤ skew)

theorem truncSec_le (t : ℤ) : truncSec t ≤ t := by
  have := Int.emod_nonneg t (show second ≠ 0 by decide)
  unfold truncSec; omega

theorem truncSec_mono {t u : ℤ} (h : t ≤ u) : truncSec t ≤ truncSec u := by
  unfold truncSec second; omega

@[simp]
theorem truncSec_truncSec (t : ℤ) : truncSec (truncSec t) = truncSec t := by
  unfold truncSec second; omega

end Kerberos

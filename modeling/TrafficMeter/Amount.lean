/-!
The ranges of the numbers that are metered. A counter is a natural number up to `maxCount`, sums of
counters stop there. A moment is a whole second from `minTime` to `maxTime`, and arithmetic on
moments stops at the ends of that range.
-/

namespace TrafficMeter

def maxCount : Nat := 18446744073709551615

def countValues : Nat := 18446744073709551616

def minTime : Int := -9223372036854775808

/-- The latest second; also the largest whole number that a stored column holds. -/
def maxTime : Int := 9223372036854775807

def addCounts (a b : Nat) : Nat := min (a + b) maxCount

def clampTime (t : Int) : Int := max minTime (min t maxTime)

def earlier (t seconds : Int) : Int := clampTime (t - seconds)

theorem clampTime_of_mem {t : Int} (low : minTime ≤ t) (high : t ≤ maxTime) : clampTime t = t := by
  unfold clampTime; omega

theorem clampTime_bounds (t : Int) : minTime ≤ clampTime t ∧ clampTime t ≤ maxTime := by
  unfold clampTime minTime maxTime; omega

theorem clampTime_mono {s t : Int} (h : s ≤ t) : clampTime s ≤ clampTime t := by
  unfold clampTime; omega

theorem earlier_le {t seconds : Int} (hseconds : 0 ≤ seconds) (low : minTime ≤ t) :
    earlier t seconds ≤ t := by
  unfold earlier clampTime; omega

theorem earlier_le_iff {s t seconds : Int} (low : minTime ≤ s) (high : t ≤ maxTime)
    (hseconds : 0 ≤ seconds) : earlier t seconds ≤ s ↔ t - seconds ≤ s := by
  unfold earlier clampTime; omega

/-- The start of the bucket of `width` seconds that contains `t`; a width of none leaves `t`. -/
def bucketStart (t width : Int) : Int :=
  if width ≤ 0 then t else clampTime (t / width * width)

/-- The bucket key that stored queries use: the multiple of `width` next to `t` toward zero. -/
def bucketKey (t width : Int) : Int := t.tdiv width * width

end TrafficMeter

import TrafficMeter.Proofs.Store.OrderedAnswers

/-!
Where buckets start. The start of a second's bucket is the last multiple of the width that is not
after the second, or the earliest second if that multiple lies before all seconds. From second zero
on it is the key by which queries and rollups group their rows.
-/

namespace TrafficMeter

section Starts

variable {ts later width : ℤ}

theorem start_nonneg (h : 0 ≤ ts) (hw : 0 < width) : 0 ≤ ts / width * width :=
  mul_nonneg (Int.ediv_nonneg h hw.le) hw.le

theorem start_bounds (hw : 0 < width) (ts : ℤ) :
    ts / width * width ≤ ts ∧ ts < ts / width * width + width := by
  have hlt := Int.lt_ediv_add_one_mul_self ts hw
  rw [add_mul, one_mul] at hlt
  exact ⟨Int.ediv_mul_le ts hw.ne', hlt⟩

theorem le_start_of_dvd {multiple : ℤ} (hw : 0 < width) (hm : width ∣ multiple)
    (h : multiple ≤ ts) : multiple ≤ ts / width * width := by
  obtain ⟨q, rfl⟩ := hm
  have hq : q ≤ ts / width := Int.le_ediv_of_mul_le hw (by rwa [mul_comm])
  rw [mul_comm width q]
  exact Int.mul_le_mul_of_nonneg_right hq hw.le

theorem bucketStart_mono (hw : 0 < width) (h : ts ≤ later) :
    bucketStart ts width ≤ bucketStart later width := by
  have hquotient := Int.ediv_le_ediv hw h
  rw [bucketStart, bucketStart, if_neg (not_le.mpr hw), if_neg (not_le.mpr hw)]
  exact clampTime_mono (Int.mul_le_mul_of_nonneg_right hquotient hw.le)

/-- The floor is a second itself, or there is none that early. A floor is never too late. -/
theorem bucketStart_cases (hw : 0 < width) (hhigh : ts ≤ maxTime) :
    (minTime ≤ ts / width * width ∧ bucketStart ts width = ts / width * width) ∨
      (ts / width * width < minTime ∧ bucketStart ts width = minTime) := by
  obtain ⟨hle, -⟩ := start_bounds hw ts
  rw [bucketStart, if_neg (not_le.mpr hw)]
  rcases le_or_gt minTime (ts / width * width) with h | h
  · exact Or.inl ⟨h, clampTime_of_mem h (hle.trans hhigh)⟩
  · refine Or.inr ⟨h, ?_⟩
    unfold clampTime minTime maxTime at *
    omega

theorem minTime_le_bucketStart (hw : 0 < width) (hhigh : ts ≤ maxTime) :
    minTime ≤ bucketStart ts width := by
  rcases bucketStart_cases hw hhigh with ⟨h, hstart⟩ | ⟨-, hstart⟩
  · exact hstart ▸ h
  · exact hstart.ge

theorem bucketStart_le (hw : 0 < width) (hlow : minTime ≤ ts) (hhigh : ts ≤ maxTime) :
    bucketStart ts width ≤ ts := by
  obtain ⟨hle, -⟩ := start_bounds hw ts
  rcases bucketStart_cases hw hhigh with ⟨-, hstart⟩ | ⟨-, hstart⟩
  · exact hstart ▸ hle
  · exact hstart ▸ hlow

theorem lt_bucketStart_add (hw : 0 < width) (hhigh : ts ≤ maxTime) :
    ts < bucketStart ts width + width := by
  obtain ⟨-, hlt⟩ := start_bounds hw ts
  rcases bucketStart_cases hw hhigh with ⟨-, hstart⟩ | ⟨hfloor, hstart⟩
  · exact hstart ▸ hlt
  · rw [hstart]
    omega

theorem dvd_bucketStart_or (hw : 0 < width) (hhigh : ts ≤ maxTime) :
    width ∣ bucketStart ts width ∨ bucketStart ts width = minTime := by
  rcases bucketStart_cases hw hhigh with ⟨-, hstart⟩ | ⟨-, hstart⟩
  · exact Or.inl (hstart ▸ Int.dvd_mul_left _ _)
  · exact Or.inr hstart

theorem le_bucketStart_of_dvd {multiple : ℤ} (hw : 0 < width) (hhigh : ts ≤ maxTime)
    (hm : width ∣ multiple) (h : multiple ≤ ts) : multiple ≤ bucketStart ts width := by
  have hfloor := le_start_of_dvd hw hm h
  rcases bucketStart_cases hw hhigh with ⟨-, hstart⟩ | ⟨hlow, hstart⟩
  · exact hstart ▸ hfloor
  · exact hstart ▸ hfloor.trans hlow.le

theorem bucketStart_bucketStart (hw : 0 < width) (hlow : minTime ≤ ts) (hhigh : ts ≤ maxTime) :
    bucketStart (bucketStart ts width) width = bucketStart ts width := by
  have hmin := minTime_le_bucketStart hw hhigh
  have hmax := (bucketStart_le hw hlow hhigh).trans hhigh
  apply le_antisymm (bucketStart_le hw hmin hmax)
  rcases dvd_bucketStart_or hw hhigh with hmultiple | hearliest
  · exact le_bucketStart_of_dvd hw hmax hmultiple le_rfl
  · exact hearliest.le.trans (minTime_le_bucketStart hw hmax)

theorem bucketStart_eq (h : 0 ≤ ts) (hhigh : ts ≤ maxTime) (hw : 0 < width) :
    bucketStart ts width = ts / width * width := by
  have hnonneg := start_nonneg h hw
  rcases bucketStart_cases hw hhigh with ⟨-, hstart⟩ | ⟨hfloor, -⟩
  · exact hstart
  · exact absurd hfloor (not_lt.mpr (le_trans (by decide) hnonneg))

theorem bucketStart_eq_bucketKey (h : 0 ≤ ts) (hhigh : ts ≤ maxTime) (hw : 0 < width) :
    bucketStart ts width = bucketKey ts width := by
  rw [bucketStart_eq h hhigh hw, Store.bucketKey_eq h]

end Starts

namespace Store

/-- Starts of buckets are floors on the whole range of seconds: each is the last multiple of the
interval that is not after its second, up to the end of the range, where the earliest second stands
in. From second zero on a rollup and a bucketed answer place their rows at these starts. -/
theorem bucketStart_floors {interval : ℤ} (hpos : 0 < interval) :
    (∀ ts, minTime ≤ ts → ts ≤ maxTime →
      minTime ≤ bucketStart ts interval ∧ bucketStart ts interval ≤ ts ∧
      ts - bucketStart ts interval < interval ∧
      (interval ∣ bucketStart ts interval ∨ bucketStart ts interval = minTime) ∧
      (∀ multiple, interval ∣ multiple → multiple ≤ ts → multiple ≤ bucketStart ts interval) ∧
      bucketStart (bucketStart ts interval) interval = bucketStart ts interval ∧
      (0 ≤ ts → bucketStart ts interval = bucketKey ts interval)) ∧
    (∀ ts later, ts ≤ later → bucketStart ts interval ≤ bucketStart later interval) ∧
    (∀ rows b, (∀ r ∈ rows, 0 ≤ r.ts ∧ r.ts ≤ maxTime) → .ok b ∈ rollUp rows interval →
      ∃ r ∈ rows, b.id = r.id ∧ b.ts = bucketStart r.ts interval) ∧
    ∀ (t : Tables) series identities first last points, 0 ≤ first → last ≤ maxTime →
      t.bucketed series identities first last interval = .ok points →
      points.map (·.ts) = sortedKeys ((t.contributions series identities first last).map fun r =>
        bucketStart r.ts interval) := by
  refine ⟨?_, ?_, ?_, ?_⟩
  · intro ts hlow hhigh
    have hnear := lt_bucketStart_add hpos hhigh
    refine ⟨minTime_le_bucketStart hpos hhigh, bucketStart_le hpos hlow hhigh, by omega,
      dvd_bucketStart_or hpos hhigh, ?_, bucketStart_bucketStart hpos hlow hhigh, ?_⟩
    · intro multiple hm hle
      exact le_bucketStart_of_dvd hpos hhigh hm hle
    · intro h
      exact bucketStart_eq_bucketKey h hhigh hpos
  · intro ts later h
    exact bucketStart_mono hpos h
  · intro rows b hrows hb
    obtain ⟨r, hr, hslot⟩ := mem_slots.mp (mem_rollUp hb)
    obtain ⟨hid, hts⟩ := Prod.mk.inj hslot
    obtain ⟨hnonneg, hhigh⟩ := hrows r hr
    refine ⟨r, hr, hid.symm, ?_⟩
    rw [bucketStart_eq_bucketKey hnonneg hhigh hpos]
    exact hts.symm
  · intro t series identities first last points hfirst hlast hread
    rw [bucketed_keys hpos hread]
    refine congrArg sortedKeys (List.map_congr_left fun r hr => ?_)
    obtain ⟨-, hafter, hbefore⟩ := contributed hr
    exact (bucketStart_eq_bucketKey (hfirst.trans hafter) (hbefore.trans hlast) hpos).symm

def rowsOfDays : List Row :=
  [⟨"a", 86399, .int 5, .int 1⟩, ⟨"a", 90000, .int 7, .int 2⟩]

theorem bucketStart_floors_of_days :
    0 < (86400 : ℤ) ∧
    bucketStart (minTime + 1) 86400 = minTime ∧ ¬ (86400 : ℤ) ∣ minTime ∧
    bucketStart (bucketStart (minTime + 1) 86400) 86400 = bucketStart (minTime + 1) 86400 ∧
    bucketStart (-1) 86400 = -86400 ∧ bucketStart (-1) 86400 ≤ bucketStart 0 86400 ∧
    bucketStart maxTime 86400 = bucketKey maxTime 86400 ∧
    (∃ r ∈ rowsOfDays, "a" = r.id ∧ 86400 = bucketStart r.ts 86400) ∧
    [0, 86400] = sortedKeys (rowsOfDays.map fun r => bucketStart r.ts 86400) := by
  have hpos : 0 < (86400 : ℤ) := by decide
  obtain ⟨hstarts, hmono, hrolled, hpoints⟩ := bucketStart_floors hpos
  obtain ⟨-, -, -, -, -, hidem, -⟩ := hstarts (minTime + 1) (by decide) (by decide)
  obtain ⟨-, -, -, -, -, -, hkey⟩ := hstarts maxTime (by decide) (by decide)
  have hbucket : .ok ⟨"a", 86400, .int 7, .int 2⟩ ∈ rollUp rowsOfDays 86400 := by decide +kernel
  have hread : ({ Tables.empty with traffic := rowsOfDays } : Tables).bucketed .traffic [] 0 100000
      86400 = .ok [⟨0, 5, 1⟩, ⟨86400, 7, 2⟩] := by decide +kernel
  exact ⟨hpos, by decide, by decide, hidem, by decide, hmono (-1) 0 (by decide), hkey (by decide),
    hrolled rowsOfDays _ (by decide) hbucket,
    hpoints _ _ _ _ _ _ (by decide) (by decide) hread⟩

end Store

end TrafficMeter

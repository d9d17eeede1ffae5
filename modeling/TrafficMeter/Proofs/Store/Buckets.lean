import TrafficMeter.Proofs.Store.Merging
import TrafficMeter.Store.Rollup

/-!
What a rollup yields. Rows that can be summed give one whole bucket for each identity and bucket
start that occurs, and the buckets hold what the rows do, under the slot of each row.
-/

namespace TrafficMeter.Store

theorem bucketKey_eq {ts : ℤ} (h : 0 ≤ ts) (width : ℤ) :
    bucketKey ts width = ts / width * width := by
  rw [bucketKey, Int.tdiv_eq_ediv_of_nonneg h]

theorem bucketKey_le {ts width : ℤ} (h : 0 ≤ ts) (hw : 1 ≤ width) : bucketKey ts width ≤ ts := by
  rw [bucketKey_eq h]
  exact Int.ediv_mul_le ts (by omega)

theorem bucketKey_near {width : ℤ} (hw : 1 ≤ width) (ts : ℤ) : |bucketKey ts width - ts| < width := by
  have hsplit := Int.mul_tdiv_add_tmod ts width
  have hlow := Int.lt_tmod_of_pos ts (show 0 < width by omega)
  have hhigh := Int.tmod_lt_of_pos ts (show 0 < width by omega)
  rw [abs_lt, bucketKey, mul_comm]
  omega

theorem dvd_bucketKey (ts width : ℤ) : width ∣ bucketKey ts width := Int.dvd_mul_left _ _

theorem lt_bucketKey_add {width : ℤ} (hw : 0 < width) (ts : ℤ) :
    ts < bucketKey ts width + width := by
  obtain ⟨hnear, -⟩ := abs_lt.mp (bucketKey_near hw ts)
  omega

def Row.slot (width : ℤ) (r : Row) : String × ℤ := (r.id, bucketKey r.ts width)

def slots (rows : List Row) (width : ℤ) : List (String × ℤ) :=
  (sortedKeys (rows.map (·.id))).flatMap fun identity =>
    (sortedKeys ((rows.filter (·.id == identity)).map fun r => bucketKey r.ts width)).map
      fun start => (identity, start)

def rolled (rows : List Row) (width : ℤ) : List Row :=
  (slots rows width).map fun slot =>
    let amount := moved (rows.filter fun r => r.slot width = slot)
    ⟨slot.1, slot.2, .ofCount amount.1, .ofCount amount.2⟩

variable {rows : List Row} {width : ℤ}

theorem mem_slots {slot : String × ℤ} :
    slot ∈ slots rows width ↔ ∃ r ∈ rows, r.slot width = slot := by
  simp only [slots, List.mem_flatMap, mem_sortedKeys, List.mem_map, List.mem_filter, beq_iff_eq]
  constructor
  · rintro ⟨_, _, _, ⟨r, ⟨hr, rfl⟩, rfl⟩, rfl⟩
    exact ⟨r, hr, rfl⟩
  · rintro ⟨r, hr, rfl⟩
    exact ⟨r.id, ⟨r, hr, rfl⟩, bucketKey r.ts width, ⟨r, ⟨hr, rfl⟩, rfl⟩, rfl⟩

theorem slots_nodup : (slots rows width).Nodup := by
  refine List.nodup_flatMap.mpr ⟨?_, ?_⟩
  · intro identity _
    exact (sortedKeys_nodup _).map fun _ _ h => (Prod.mk.inj h).2
  · refine (sortedKeys_nodup _).imp ?_
    intro a b hab
    change List.Disjoint _ _
    rw [List.disjoint_left]
    intro slot ha hb
    obtain ⟨_, _, rfl⟩ := List.mem_map.mp ha
    obtain ⟨_, _, he⟩ := List.mem_map.mp hb
    exact hab (Prod.mk.inj he).1.symm

theorem rolled_keys : (rolled rows width).map Row.key = slots rows width := by
  rw [rolled, List.map_map]
  exact List.map_id' _

/-- The bucket of one slot, or what is wrong with its sums. -/
def slotSum (rows : List Row) (width : ℤ) (slot : String × ℤ) : Except StoreFault Row := do
  let own := rows.filter (·.id == slot.1)
  let (up, down) ← groupSum (own.map (Row.share fun r => bucketKey r.ts width)) slot.2
  return ⟨slot.1, slot.2, up, down⟩

theorem slotSum_key {slot : String × ℤ} {b : Row} (h : slotSum rows width slot = .ok b) :
    b.key = slot := by
  unfold slotSum at h
  dsimp only at h
  cases hs : groupSum ((rows.filter (·.id == slot.1)).map
      (Row.share fun r => bucketKey r.ts width)) slot.2 with
  | error fault =>
    rw [hs] at h
    cases h
  | ok amounts =>
    rw [hs] at h
    cases h
    rfl

theorem rollUp_eq_map : rollUp rows width = (slots rows width).map (slotSum rows width) := by
  simp only [rollUp, slots, List.map_flatMap, List.map_map]
  rfl

theorem rollUp_tallied (h : Tallied rows) : rollUp rows width = (rolled rows width).map .ok := by
  rw [rollUp_eq_map, rolled, List.map_map]
  apply List.map_congr_left
  intro slot _
  have hf : (rows.filter (·.id == slot.1)).filter (fun r => bucketKey r.ts width = slot.2) =
      rows.filter fun r => r.slot width = slot := by
    rw [List.filter_filter]
    apply List.filter_congr
    intro r _
    by_cases hr : r.id = slot.1 <;> simp [Row.slot, hr, Prod.ext_iff]
  have hgroup : Tallied ((rows.filter (·.id == slot.1)).filter
      fun r => bucketKey r.ts width = slot.2) := (h.filter _).filter _
  have hsum := groupSum_tallied hgroup
  rw [hf] at hsum
  simp only [slotSum, hsum]
  rfl

theorem mem_rollUp {b : Row} (h : .ok b ∈ rollUp rows width) : b.key ∈ slots rows width := by
  rw [rollUp_eq_map] at h
  obtain ⟨slot, hslot, hb⟩ := List.mem_map.mp h
  rw [slotSum_key hb]
  exact hslot

theorem rollUp_keys_sublist :
    (((rollUp rows width).filterMap Except.toOption).map Row.key).Sublist (slots rows width) := by
  rw [rollUp_eq_map, List.filterMap_map, List.map_filterMap]
  induction slots rows width with
  | nil => exact List.Sublist.refl _
  | cons slot rest ih =>
    rw [List.filterMap_cons, Function.comp_apply]
    cases hb : slotSum rows width slot with
    | error fault => exact ih.cons slot
    | ok b =>
      change (b.key :: _).Sublist (slot :: rest)
      rw [slotSum_key hb]
      exact ih.cons_cons slot

theorem rolled_whole : ∀ b ∈ rolled rows width, b.Whole := by
  intro b hb
  obtain ⟨slot, _, rfl⟩ := List.mem_map.mp hb
  exact ⟨Cell.ofCount_whole _, Cell.ofCount_whole _⟩

/-- Buckets hold what the rows held, each row counted under its slot. -/
theorem movedAt_rolled (h : Tallied rows) (test : String × ℤ → Bool) :
    movedAt test (rolled rows width) = moved (rows.filter fun r => test (r.slot width)) := by
  have hbytes : ∀ slot, Row.bytes ⟨slot.1, slot.2,
      .ofCount (moved (rows.filter fun r => r.slot width = slot)).1,
      .ofCount (moved (rows.filter fun r => r.slot width = slot)).2⟩ =
      moved (rows.filter fun r => r.slot width = slot) := by
    intro slot
    obtain ⟨hu, hd⟩ := (h.filter fun r => r.slot width = slot).storable
    simp only [Row.bytes, Cell.bytes_ofCount_of_le hu, Cell.bytes_ofCount_of_le hd]
  have hsum : movedAt test (rolled rows width) =
      (((slots rows width).filter test).map fun slot =>
        moved (rows.filter fun r => r.slot width = slot)).sum := by
    unfold movedAt moved rolled
    rw [List.filter_map, List.map_map]
    exact congrArg List.sum (List.map_congr_left fun slot _ => hbytes slot)
  rw [hsum, sum_moved_groups rows (Row.slot width) (slots_nodup.filter test)]
  refine congrArg moved (List.filter_congr fun r hr => ?_)
  have hm : r.slot width ∈ slots rows width := mem_slots.mpr ⟨r, hr, rfl⟩
  simp [hm]

end TrafficMeter.Store

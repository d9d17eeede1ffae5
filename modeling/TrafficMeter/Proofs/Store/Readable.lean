import TrafficMeter.Proofs.Store.Calls

/-!
Which byte columns can be read back. Every amount that a call writes is an integer of the column, but
amounts that are added inside the database can leave its range, and the rows that they are in cannot
be read from then on. A run keeps all columns readable exactly as long as no call adds past the range.
-/

namespace TrafficMeter.Store

namespace Cell

theorem Stored.count?_ok_iff {c : Cell} (h : c.Stored) : (∃ n, c.count? = .ok n) ↔ c.Whole := by
  constructor
  · rintro ⟨n, hn⟩
    refine h.resolve_right fun ⟨hr, _⟩ => ?_
    cases c with
    | int m => cases hr
    | real m => cases hn
  · intro hw
    exact ⟨c.bytes, count?_whole hw⟩

theorem add_whole_iff {a b : Cell} (ha : a.Stored) (hb : b.Whole) :
    (a.add b).Whole ↔ a.Whole ∧ ((a.bytes + b.bytes : ℕ) : ℤ) ≤ maxTime := by
  constructor
  · intro h
    rcases add_cases ha.value_eq hb.value_eq with ⟨hle, -⟩ | ⟨-, he⟩
    · exact ⟨ha.whole (by omega), hle⟩
    · have hr := h.not_real
      rw [he] at hr
      cases hr
  · rintro ⟨hw, hle⟩
    rw [add_whole hw hb hle]
    exact ofCount_whole _

end Cell

theorem Row.absorb_whole_iff {r s : Row} (hr : r.Stored) (hs : s.Whole) :
    (r.absorb s).Whole ↔ r.Whole ∧ Storable (r.bytes + s.bytes) := by
  constructor
  · rintro ⟨hu, hd⟩
    obtain ⟨hru, hule⟩ := (Cell.add_whole_iff hr.1 hs.1).mp hu
    obtain ⟨hrd, hdle⟩ := (Cell.add_whole_iff hr.2 hs.2).mp hd
    exact ⟨⟨hru, hrd⟩, hule, hdle⟩
  · rintro ⟨hw, hfits⟩
    exact (Row.absorb_whole hw hs hfits).1

section Merging

variable {table : List Row}

theorem movedAt_key_storable (h : DistinctKeys id table) (hw : ∀ r ∈ table, r.Whole)
    (k : String × ℤ) : Storable (movedAt (fun key => key = k) table) := by
  have hnone : ∀ rows : List Row, (∀ r ∈ rows, r.key ≠ k) → movedAt (fun key => key = k) rows = 0 := by
    intro rows hk
    rw [movedAt, List.filter_eq_nil_iff.mpr fun r hr => by simpa using hk r hr, moved_nil]
  by_cases hk : ∃ r ∈ table, r.key = k
  · obtain ⟨r, hr, rfl⟩ := hk
    obtain ⟨before, after, rfl, hother⟩ := h.split hr
    rw [movedAt_append, movedAt_cons, if_pos (decide_eq_true rfl),
      hnone before fun s hs => hother s (List.mem_append_left _ hs),
      hnone after fun s hs => hother s (List.mem_append_right _ hs), zero_add, add_zero]
    exact (hw r hr).storable
  · push Not at hk
    rw [hnone table hk]
    decide

/-- A merge leaves whole rows only if they were whole and the row's key stays within range. -/
theorem whole_of_merge (h : DistinctKeys id table) (hs : ∀ r ∈ table, r.Stored) {a : Row}
    (ha : a.Whole) (hw : ∀ r ∈ merge table a, r.Whole) : (∀ r ∈ table, r.Whole) ∧
      Storable (movedAt (fun key => key = a.key) table + a.bytes) := by
  have hd := h.merge a
  rcases merge_cases h a with ⟨hn, he⟩ | ⟨before, r, after, rfl, hk, he⟩
  · have htable : ∀ r ∈ table, r.Whole := fun r hr => hw r (by rw [he]; exact List.mem_append_left _ hr)
    refine ⟨htable, ?_⟩
    have hfits := movedAt_key_storable hd hw a.key
    rwa [he, movedAt_append, movedAt_cons, if_pos (decide_eq_true rfl), movedAt_nil, add_zero] at hfits
  · have hr : r.Stored := hs r (by simp)
    have habsorbed : (r.absorb a).Whole := hw _ (by rw [he]; simp)
    obtain ⟨hrw, hsum⟩ := (Row.absorb_whole_iff hr ha).mp habsorbed
    have htable : ∀ s ∈ before ++ r :: after, s.Whole := by
      intro s hin
      rcases List.mem_append.mp hin with hin | hin
      · exact hw s (by rw [he]; exact List.mem_append_left _ hin)
      · rcases List.mem_cons.mp hin with rfl | hin
        · exact hrw
        · exact hw s (by rw [he]; exact List.mem_append_right _ (List.mem_cons_of_mem _ hin))
    refine ⟨htable, ?_⟩
    have hfits := movedAt_key_storable hd hw a.key
    rw [he, movedAt_append, movedAt_cons, Row.key_absorb, if_pos (decide_eq_true hk),
      (Row.absorb_whole hrw ha hsum).2] at hfits
    rw [movedAt_append, movedAt_cons, if_pos (decide_eq_true hk)]
    refine hfits.mono (le_of_eq ?_)
    ac_rfl

theorem whole_foldl_merge_iff {rows : List Row} (h : DistinctKeys id table)
    (hs : ∀ r ∈ table, r.Stored) (hr : ∀ r ∈ rows, r.Whole) :
    (∀ r ∈ rows.foldl merge table, r.Whole) ↔ (∀ r ∈ table, r.Whole) ∧
      ∀ k, Storable (movedAt (fun key => key = k) table + movedAt (fun key => key = k) rows) := by
  constructor
  · intro hw
    induction rows generalizing table with
    | nil => exact ⟨hw, fun k => by simpa using movedAt_key_storable h hw k⟩
    | cons a rest ih =>
      have ha := hr a List.mem_cons_self
      -- rows are never mended, so those that are whole in the end were whole after the first merge
      obtain ⟨hmerged, hrest⟩ := ih (h.merge a) (merge_stored hs ha.stored)
        (fun r hin => hr r (List.mem_cons_of_mem a hin)) hw
      obtain ⟨htable, hfits⟩ := whole_of_merge h hs ha hmerged
      refine ⟨htable, fun k => ?_⟩
      have hk := hrest k
      rw [(merge_whole h htable ha hfits).2] at hk
      rw [movedAt_cons, ← add_assoc]
      rwa [movedAt_cons, movedAt_nil, add_zero] at hk
  · rintro ⟨hw, hfits⟩
    exact (foldl_merge_within h hw hr hfits).1

end Merging

structure Tables.Readable (t : Tables) : Prop where
  traffic : ∀ r ∈ t.traffic, r.Whole
  peers : ∀ s ∈ t.peers, s.Whole
  trafficBuckets : ∀ r ∈ t.trafficBuckets, r.Whole
  peerBuckets : ∀ r ∈ t.peerBuckets, r.Whole

namespace Call

/-- A call adds up nothing past the range: no sample to a row, no bucket of a rollup to another. -/
def Fits (t : Tables) : Call → Prop
  | .merge samples => ∀ k, Storable (movedAt (fun key => key = k) t.traffic +
      movedAt (fun key => key = k) (samples.map Sample.row))
  | .compress series cutoff width => ∀ k,
      Storable (movedAt (fun key => key = k) (Action.bucketsOf series t) +
        movedAt (fun key => key = k)
          ((t.rolledUp series cutoff (max width 1)).filterMap Except.toOption))
  | _ => True

end Call

section Steps

variable {t : Tables}

theorem Tables.Readable.filtered (h : t.Readable) (cutoff : ℤ) (series : Series) :
    ((t.prune cutoff series).dropBuckets cutoff series).Readable := by
  cases series with
  | traffic =>
    exact ⟨fun r hr => h.traffic r (List.mem_filter.mp hr).1, h.peers,
      fun r hr => h.trafficBuckets r (List.mem_filter.mp hr).1, h.peerBuckets⟩
  | peers =>
    exact ⟨h.traffic, fun s hs => h.peers s (List.mem_filter.mp hs).1, h.trafficBuckets,
      fun r hr => h.peerBuckets r (List.mem_filter.mp hr).1⟩

theorem readable_append (h : t.Readable) (samples : List Sample) :
    (Call.effect t (.append samples)).Readable := by
  refine ⟨fun r hr => ?_, h.peers, h.trafficBuckets, h.peerBuckets⟩
  simp only [Call.effect, foldl_insertNew, List.mem_append] at hr
  rcases hr with hr | hr
  · exact h.traffic r hr
  · exact Sample.rows_whole samples r (newcomers_subset _ _ _ hr)

theorem readable_merge_iff (hs : t.Sound) (h : t.Readable) (samples : List Sample) :
    (Call.effect t (.merge samples)).Readable ↔ Call.Fits t (.merge samples) := by
  have hiff := whole_foldl_merge_iff hs.traffic hs.samples (Sample.rows_whole samples)
  constructor
  · intro hr
    exact (hiff.mp hr.traffic).2
  · intro hfits
    exact ⟨hiff.mpr ⟨h.traffic, hfits⟩, h.peers, h.trafficBuckets, h.peerBuckets⟩

theorem readable_compress_iff (hs : t.Sound) (h : t.Readable) (series : Series) (cutoff width : ℤ) :
    (Call.effect t (.compress series cutoff width)).Readable ↔
      Call.Fits t (.compress series cutoff width) := by
  have hrows : ∀ r ∈ (t.rolledUp series cutoff (max width 1)).filterMap Except.toOption,
      r.Whole := by
    intro r hr
    obtain ⟨bucket, hb, hok⟩ := List.mem_filterMap.mp hr
    cases bucket with
    | error fault => cases hok
    | ok b =>
      cases hok
      exact rolledUp_whole h.traffic h.peers hb
  cases series with
  | traffic =>
    have hiff := whole_foldl_merge_iff hs.trafficBuckets hs.trafficAmounts hrows
    constructor
    · intro hr
      exact (hiff.mp hr.trafficBuckets).2
    · intro hfits
      exact ⟨fun r hr => h.traffic r (List.mem_filter.mp hr).1, h.peers,
        hiff.mpr ⟨h.trafficBuckets, hfits⟩, h.peerBuckets⟩
  | peers =>
    have hiff := whole_foldl_merge_iff hs.peerBuckets hs.peerAmounts hrows
    constructor
    · intro hr
      exact (hiff.mp hr.peerBuckets).2
    · intro hfits
      exact ⟨h.traffic, fun s hin => h.peers s (List.mem_filter.mp hin).1, h.trafficBuckets,
        hiff.mpr ⟨h.peerBuckets, hfits⟩⟩

theorem readable_effect_iff (hs : t.Sound) (h : t.Readable) (call : Call) :
    (call.effect t).Readable ↔ call.Fits t := by
  cases call with
  | append samples => exact iff_of_true (readable_append h samples) trivial
  | merge samples => exact readable_merge_iff hs h samples
  | appendPeers samples =>
    refine iff_of_true ?_ trivial
    exact ⟨h.traffic, (hs.appendPeers samples).counters, h.trafficBuckets, h.peerBuckets⟩
  | hardDelete series cutoff => exact iff_of_true (h.filtered cutoff series) trivial
  | compress series cutoff width => exact readable_compress_iff hs h series cutoff width

end Steps

def Fitting : List Call → Database → Prop
  | [], _ => True
  | call :: rest, db =>
    ((∃ n after, call.action.run db = (.ok n, after)) → call.Fits db.tables) ∧
      Fitting rest (call.after db)

theorem readable_after_iff {db : Database} (hs : db.tables.Sound) (h : db.tables.Readable)
    (call : Call) : (call.after db).tables.Readable ↔
      ((∃ n after, call.action.run db = (.ok n, after)) → call.Fits db.tables) := by
  rcases call.run_cases db with ⟨failure, hr⟩ | ⟨-, hr⟩
  · rw [Call.after, hr]
    refine iff_of_true h ?_
    rintro ⟨n, after, he⟩
    cases he
  · rw [Call.after, hr]
    exact (readable_effect_iff hs h call).trans ⟨fun hf _ => hf, fun hf => hf ⟨_, _, rfl⟩⟩

/-- A run never leaves the readable tables exactly if each of its calls fits. -/
theorem readable_throughout_iff {db : Database} (hs : db.tables.Sound) (h : db.tables.Readable)
    (calls : List Call) :
    (∀ n, (runAll (calls.take n) db).tables.Readable) ↔ Fitting calls db := by
  induction calls generalizing db with
  | nil => exact iff_of_true (fun n => by rw [List.take_nil]; exact h) trivial
  | cons call rest ih =>
    have hsplit : (∀ n, (runAll ((call :: rest).take n) db).tables.Readable) ↔
        ∀ n, (runAll (rest.take n) (call.after db)).tables.Readable := by
      constructor
      · intro hall n
        exact hall (n + 1)
      · intro hall n
        cases n with
        | zero => exact h
        | succ n => exact hall n
    rw [hsplit, Fitting, ← readable_after_iff hs h call]
    constructor
    · intro hall
      exact ⟨hall 0, (ih (hs.after call) (hall 0)).mp hall⟩
    · rintro ⟨hafter, hrest⟩
      exact (ih (hs.after call) hafter).mpr hrest

section Answers

theorem exists_mapM_ok_iff {α β ε : Type} {f : α → Except ε β} {l : List α} :
    (∃ out, l.mapM f = .ok out) ↔ ∀ a ∈ l, ∃ b, f a = .ok b := by
  induction l with
  | nil => exact iff_of_true ⟨[], rfl⟩ nofun
  | cons a rest ih =>
    rw [List.mapM_cons, List.forall_mem_cons, ← ih]
    cases ha : f a with
    | error e => exact ⟨nofun, fun h => nomatch h.1⟩
    | ok b =>
      cases hr : rest.mapM f with
      | error e => exact ⟨nofun, fun h => nomatch h.2⟩
      | ok out => exact iff_of_true ⟨b :: out, rfl⟩ ⟨⟨b, rfl⟩, out, rfl⟩

theorem exists_raise_ok_iff {α : Type} {activity : String} {e : Except StoreFault α} :
    (∃ a, raise activity e = .ok a) ↔ ∃ a, e = .ok a := by
  cases e with
  | error fault => exact ⟨nofun, nofun⟩
  | ok a => exact iff_of_true ⟨a, rfl⟩ ⟨a, rfl⟩

theorem exists_counts_ok_iff {α : Type} {up down : Cell} (hu : up.Stored) (hd : down.Stored)
    (build : ℕ → ℕ → α) :
    (∃ a, (do return build (← up.count?) (← down.count?) : Except StoreFault α) = .ok a) ↔
      up.Whole ∧ down.Whole := by
  rw [← hu.count?_ok_iff, ← hd.count?_ok_iff]
  cases up.count? with
  | error fault => exact ⟨nofun, fun h => nomatch h.1⟩
  | ok m =>
    cases down.count? with
    | error fault => exact ⟨nofun, fun h => nomatch h.2⟩
    | ok n => exact iff_of_true ⟨build m n, rfl⟩ ⟨⟨m, rfl⟩, n, rfl⟩

namespace Tables

variable {t : Tables}

theorem range_ok_iff (hs : t.Sound) (identity : String) (first last : ℤ) :
    (∃ samples, t.range identity first last = .ok samples) ↔
      ∀ r ∈ t.traffic, r.id = identity → first ≤ r.ts → r.ts ≤ last → r.Whole := by
  have hmem : ∀ r, r ∈ sortByTime id
      (t.traffic.filter fun r => r.id == identity && inWindow first last r.ts) ↔
      r ∈ t.traffic ∧ r.id = identity ∧ first ≤ r.ts ∧ r.ts ≤ last := by
    intro r
    rw [(sortByTime_perm _ _).mem_iff, List.mem_filter]
    simp [inWindow]
  rw [range, exists_raise_ok_iff, exists_mapM_ok_iff]
  constructor
  · intro hread r hr hid hfirst hlast
    have hrow := hs.samples r hr
    exact (exists_counts_ok_iff hrow.1 hrow.2 (Sample.mk r.id r.ts)).mp
      (hread r ((hmem r).mpr ⟨hr, hid, hfirst, hlast⟩))
  · intro hwhole r hin
    obtain ⟨hr, hid, hfirst, hlast⟩ := (hmem r).mp hin
    have hrow := hs.samples r hr
    exact (exists_counts_ok_iff hrow.1 hrow.2 (Sample.mk r.id r.ts)).mpr
      (hwhole r hr hid hfirst hlast)

theorem peerRange_ok (hs : t.Sound) (peer : String) (first last : ℤ) :
    ∃ snapshots, t.peerRange peer first last = .ok snapshots := by
  rw [peerRange, exists_raise_ok_iff, exists_mapM_ok_iff]
  intro s hin
  rw [(sortByTime_perm _ _).mem_iff, List.mem_filter] at hin
  have hw := hs.counters s hin.1
  exact (exists_counts_ok_iff (Or.inl hw.1) (Or.inl hw.2)
    fun up down => PeerSample.mk s.id s.ts up down s.endpoint).mpr hw

end Tables

end Answers

/-- After any run from empty tables each byte column holds an integer within range or, by an addition
inside the database, a real number past it. Snapshots are never added up and can always be read, a
range of traffic exactly if no such number is in it, and there never is one in any table exactly if no
call adds past the range. -/
theorem byte_columns_of_run {db : Database} (h : db.tables = .empty) (calls : List Call) :
    let t := (runAll calls db).tables
    (∀ r ∈ t.traffic ++ t.trafficBuckets ++ t.peerBuckets, r.Stored) ∧ (∀ s ∈ t.peers, s.Whole) ∧
    (∀ peer first last, ∃ snapshots, t.peerRange peer first last = .ok snapshots) ∧
    (∀ identity first last, (∃ samples, t.range identity first last = .ok samples) ↔
      ∀ r ∈ t.traffic, r.id = identity → first ≤ r.ts → r.ts ≤ last → r.Whole) ∧
    ((∀ n, (runAll (calls.take n) db).tables.Readable) ↔ Fitting calls db) := by
  intro t
  have hstart : db.tables.Sound := h ▸ Tables.Sound.empty
  have hs : t.Sound := hstart.runAll calls
  refine ⟨fun r hr => ?_, hs.counters, t.peerRange_ok hs, t.range_ok_iff hs,
    readable_throughout_iff hstart ?_ calls⟩
  · rw [List.append_assoc, List.mem_append, List.mem_append] at hr
    rcases hr with hr | hr | hr
    · exact hs.samples r hr
    · exact hs.trafficAmounts r hr
    · exact hs.peerAmounts r hr
  · rw [h]
    constructor <;> exact fun _ hin => nomatch hin

def pastLimit : List Call :=
  [.merge [⟨"a", 1, 9223372036854775807, 0⟩], .merge [⟨"a", 1, 1, 0⟩]]

theorem byte_columns_of_run_past_limit :
    ¬ Fitting pastLimit .blank ∧
      ¬ ∃ samples, (runAll pastLimit .blank).tables.range "a" 0 10 = .ok samples := by
  obtain ⟨-, -, -, hrange, hiff⟩ := @byte_columns_of_run .blank rfl pastLimit
  have hrow : (runAll pastLimit .blank).tables.traffic =
      [⟨"a", 1, .real 9223372036854775808, .int 0⟩] := by decide +kernel
  have hreal : ¬ (⟨"a", 1, .real 9223372036854775808, .int 0⟩ : Row).Whole := by decide
  constructor
  · intro hfits
    have hread := (hiff.mpr hfits 2).traffic
    refine hreal (hread _ ?_)
    rw [pastLimit, List.take_of_length_le (by simp), ← pastLimit, hrow]
    exact List.mem_cons_self
  · intro hok
    exact hreal ((hrange "a" 0 10).mp hok _ (by rw [hrow]; exact List.mem_cons_self) rfl
      (by decide) (by decide))

/-- Amounts do not saturate when they are merged: a row can hold no integer, and not be read. -/
theorem merged_amounts_not_saturated :
    ∃ calls : List Call, ∃ r ∈ (runAll calls .blank).tables.traffic,
      (∀ n : ℤ, r.up ≠ .int n) ∧
      (runAll calls .blank).tables.range r.id r.ts r.ts =
        raise "reading range rows" (.error .columnType) := by
  refine ⟨pastLimit, ⟨"a", 1, .real 9223372036854775808, .int 0⟩, by decide +kernel, ?_, ?_⟩
  · intro n hn
    cases hn
  · decide +kernel

end TrafficMeter.Store

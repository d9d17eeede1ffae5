import TrafficMeter.Proofs.Retention.Resuming
import TrafficMeter.Proofs.Store.BucketStarts
import TrafficMeter.Proofs.Store.Interleavings
import TrafficMeter.Proofs.Store.LaterAnswers

/-!
Buckets over a whole life. From the empty store, samples are stamped as they are written and passes
roll up what is before their cutoffs. As the clock never goes back, a bucket lies wholly before the
cutoff of the pass that writes it and no later pass has rows left that belong to it.
-/

namespace TrafficMeter

section Cutoffs

open Retention Store

variable {now later : ℤ}

theorem earlier_mono (h : now ≤ later) (seconds : ℤ) : earlier now seconds ≤ earlier later seconds :=
  clampTime_mono (by omega)

theorem compressedBucketSeconds_pos : 0 < compressedBucketSeconds := by decide

theorem rollup_mono (config : RetentionConfig) (h : now ≤ later) :
    (Cutoffs.at now config).rollup ≤ (Cutoffs.at later config).rollup :=
  bucketStart_mono compressedBucketSeconds_pos (earlier_mono h config.compressAfter.wholeSeconds)

theorem rollup_le (config : RetentionConfig) (h : 0 ≤ now) : (Cutoffs.at now config).rollup ≤ now := by
  have hseconds : 0 ≤ config.compressAfter.wholeSeconds := by
    unfold Span.wholeSeconds
    omega
  have hage := earlier_le hseconds (le_trans (by decide) h)
  obtain ⟨hlow, hhigh⟩ := clampTime_bounds (now - config.compressAfter.wholeSeconds)
  exact (bucketStart_le compressedBucketSeconds_pos hlow hhigh).trans hage

/-- The rollup cutoff is the start of a bucket, unless it lies too far back for any row. -/
theorem rollup_aligned (config : RetentionConfig) (now : ℤ) :
    compressedBucketSeconds ∣ (Cutoffs.at now config).rollup ∨ (Cutoffs.at now config).rollup ≤ 0 := by
  obtain ⟨-, hhigh⟩ := clampTime_bounds (now - config.compressAfter.wholeSeconds)
  refine (dvd_bucketStart_or compressedBucketSeconds_pos hhigh).imp_right fun hearliest => ?_
  exact hearliest.le.trans (by decide)

end Cutoffs

open Store

theorem Store.Tables.SameBefore.nonNegative {t u : Tables} (h : t.SameBefore 0 u) {series : Series}
    (hts : t.NonNegative series) : u.NonNegative series := by
  cases series with
  | traffic =>
    intro r hr
    by_contra hlt
    exact hlt (hts r (h.mem_traffic hr (not_le.mp hlt)))
  | peers =>
    intro s hs
    by_contra hlt
    exact hlt (hts s (h.mem_peers hs (not_le.mp hlt)))

theorem Store.Tables.SameBefore.clear {t u : Tables} {moment : ℤ} (h : t.SameBefore moment u)
    {series : Series} (hc : t.Clear moment series) : u.Clear moment series := by
  cases series with
  | traffic =>
    intro r hr
    by_contra hlt
    exact hlt (hc r (h.mem_traffic hr (not_le.mp hlt)))
  | peers =>
    intro s hs
    rw [← h.superseded_eq le_rfl]
    by_cases hlt : s.ts < moment
    · exact hc s (h.mem_peers hs hlt)
    · exact superseded_of_later (not_lt.mp hlt)

def Store.Call.StampedAt (now : ℤ) : Call → Prop
  | .append samples | .merge samples => ∀ s ∈ samples, s.ts = now
  | .appendPeers samples => ∀ s ∈ samples, s.ts = now
  | .hardDelete _ _ | .compress _ _ _ => False

instance (now : ℤ) : (call : Call) → Decidable (call.StampedAt now)
  | .append samples | .merge samples => inferInstanceAs (Decidable (∀ s ∈ samples, s.ts = now))
  | .appendPeers samples => inferInstanceAs (Decidable (∀ s ∈ samples, s.ts = now))
  | .hardDelete _ _ | .compress _ _ _ => inferInstanceAs (Decidable False)

theorem Store.Call.StampedAt.writesFrom {call : Call} {now moment : ℤ} (h : call.StampedAt now)
    (hm : moment ≤ now) : call.WritesFrom moment := by
  cases call with
  | append samples => exact fun s hs => hm.trans_eq (h s hs).symm
  | merge samples => exact fun s hs => hm.trans_eq (h s hs).symm
  | appendPeers samples => exact fun s hs => hm.trans_eq (h s hs).symm
  | hardDelete series cutoff => exact h.elim
  | compress series cutoff width => exact h.elim

theorem Store.Call.StampedAt.sameBefore {call : Call} {now moment : ℤ} (h : call.StampedAt now)
    (hm : moment ≤ now) (db : Database) :
    Tables.SameBefore moment db.tables (call.after db).tables :=
  ((h.writesFrom hm).after_sameBefore db).tables

namespace Retention

def afterExpiry (c : Cutoffs) (t : Tables) : Tables :=
  (Stage.expirePeers.call c).effect ((Stage.expireTraffic.call c).effect t)

def bucketsWritten (c : Cutoffs) (t : Tables) (series : Series) : List Row :=
  ((afterExpiry c t).rolledUp series c.rollup compressedBucketSeconds).filterMap Except.toOption

/-- A store in the course of its life: the rollup cutoff of its latest pass, and the keys of all
buckets that passes have written, oldest first. -/
structure Course where
  now : ℤ
  db : Database
  cutoff : Option ℤ
  written : Series → List (String × ℤ)

namespace Course

def start (now : ℤ) (db : Database) : Course := ⟨now, db, none, fun _ => []⟩

def write (s : Course) (now : ℤ) (call : Call) : Course := { s with now, db := call.after s.db }

def pass (s : Course) (now : ℤ) (c : Cutoffs) (done : Database) : Course where
  now := now
  db := done
  cutoff := some c.rollup
  written series := s.written series ++ (bucketsWritten c s.db.tables series).map Row.key

end Course

/-- Time passes, and then samples are written or a pass succeeds. -/
inductive Step (config : RetentionConfig) : Course → Course → Prop
  | write {s : Course} {now : ℤ} {call : Call} (hnow : s.now ≤ now) (hcall : call.StampedAt now) :
    Step config s (s.write now call)
  | pass {s : Course} {now : ℤ} {vacuum : Except StoreFault Unit} {outcome : RetentionOutcome}
    {done : Database} (hnow : s.now ≤ now)
    (hpass : (Retention.pass (.at now config) vacuum).run s.db = (.ok outcome, done)) :
    Step config s (s.pass now (.at now config) done)

inductive Reached (config : RetentionConfig) : Course → Prop
  | start {db : Database} {now : ℤ} (hempty : db.tables = .empty) (hnow : 0 ≤ now) :
    Reached config (.start now db)
  | step {s next : Course} : Reached config s → Step config s next → Reached config next

section Passes

variable {c : Cutoffs} {vacuum : Except StoreFault Unit} {db done : Database} {t : Tables}
  {series : Series}

theorem runStages_tables {stages : List Stage} {removed : List ℕ}
    (h : runStages c stages db = (.ok removed, done)) :
    done.tables = stages.foldl (fun t stage => (stage.call c).effect t) db.tables := by
  induction stages generalizing db removed with
  | nil =>
    cases h
    rfl
  | cons stage rest ih =>
    obtain ⟨n, others, mid, rfl, hstage, hothers⟩ := runStages_cons.mp h
    rw [List.foldl_cons, ← Stage.tables_of_ok hstage]
    exact ih hothers

theorem pass_tables {outcome : RetentionOutcome} (h : pass c vacuum db = (.ok outcome, done)) :
    done.tables = (Stage.rollUpPeers.call c).effect
      ((Stage.rollUpTraffic.call c).effect (afterExpiry c db.tables)) := by
  obtain ⟨removed, hstages, -⟩ := pass_ok h
  exact runStages_tables hstages

theorem pass_buckets {outcome : RetentionOutcome} (h : pass c vacuum db = (.ok outcome, done))
    (series : Series) : Action.bucketsOf series done.tables =
      (bucketsWritten c db.tables series).foldl merge
        (Action.bucketsOf series (afterExpiry c db.tables)) := by
  rw [pass_tables h]
  cases series with
  | traffic => rfl
  | peers => rfl

theorem afterExpiry_raw (c : Cutoffs) (t : Tables) : (afterExpiry c t).traffic ⊆ t.traffic ∧
    (afterExpiry c t).peers ⊆ t.peers :=
  ⟨List.filter_subset_self _, List.filter_subset_self _⟩

theorem pass_raw {outcome : RetentionOutcome} (h : pass c vacuum db = (.ok outcome, done)) :
    done.tables.traffic ⊆ db.tables.traffic ∧ done.tables.peers ⊆ db.tables.peers := by
  obtain ⟨htraffic, hpeers⟩ := afterExpiry_raw c db.tables
  rw [pass_tables h]
  constructor
  · exact List.Subset.trans (List.filter_subset_self _) htraffic
  · exact List.Subset.trans (List.filter_subset_self _) hpeers

theorem afterExpiry_buckets {b : Row} (hb : b ∈ Action.bucketsOf series (afterExpiry c t)) :
    b ∈ Action.bucketsOf series t :=
  Call.mem_buckets_hardDelete (Call.mem_buckets_hardDelete hb)

theorem mem_bucketsWritten {b : Row} (hb : b ∈ bucketsWritten c t series) :
    .ok b ∈ (afterExpiry c t).rolledUp series c.rollup compressedBucketSeconds := by
  obtain ⟨bucket, hbucket, hok⟩ := List.mem_filterMap.mp hb
  cases bucket with
  | error fault => cases hok
  | ok r =>
    cases hok
    exact hbucket

theorem bucketsWritten_nodup (c : Cutoffs) (t : Tables) (series : Series) :
    ((bucketsWritten c t series).map Row.key).Nodup := by
  cases series with
  | traffic => exact slots_nodup.sublist rollUp_keys_sublist
  | peers =>
    have hgrown : ((bucketsWritten c t .peers).map Row.key).Sublist _ :=
      (List.filter_sublist.filterMap Except.toOption).map Row.key
    exact slots_nodup.sublist (hgrown.trans rollUp_keys_sublist)

end Passes

/-- What holds all along: the clock and the raw rows are past the cutoff, save one snapshot of each
peer, and all buckets ever written end by it and have different keys. -/
structure Orderly (config : RetentionConfig) (s : Course) : Prop where
  clock : 0 ≤ s.now
  sound : s.db.tables.Sound
  nonNegative : ∀ series, s.db.tables.NonNegative series
  past : ∀ cutoff, s.cutoff = some cutoff → cutoff ≤ (Cutoffs.at s.now config).rollup
  clear : ∀ cutoff, s.cutoff = some cutoff → ∀ series, s.db.tables.Clear cutoff series
  whole : ∀ series, ∀ key ∈ s.written series, compressedBucketSeconds ∣ key.2 ∧
    ∃ cutoff, s.cutoff = some cutoff ∧ key.2 + compressedBucketSeconds ≤ cutoff
  once : ∀ series, (s.written series).Nodup
  kept : ∀ series, ∀ b ∈ Action.bucketsOf series s.db.tables, b.key ∈ s.written series

section Steps

variable {config : RetentionConfig} {s : Course} {now : ℤ} {vacuum : Except StoreFault Unit}

theorem Orderly.write (h : Orderly config s) (hnow : s.now ≤ now) {call : Call}
    (hcall : call.StampedAt now) : Orderly config (s.write now call) where
  clock := h.clock.trans hnow
  sound := h.sound.after call
  nonNegative series := by
    have hsame := hcall.sameBefore (h.clock.trans hnow) s.db
    exact hsame.nonNegative (h.nonNegative series)
  past cutoff hcutoff := (h.past cutoff hcutoff).trans (rollup_mono config hnow)
  clear cutoff hcutoff series := by
    have hpast : cutoff ≤ s.now := (h.past cutoff hcutoff).trans (rollup_le config h.clock)
    have hsame := hcall.sameBefore (hpast.trans hnow) s.db
    exact hsame.clear (h.clear cutoff hcutoff series)
  whole := h.whole
  once := h.once
  kept series b hb := by
    have hsame := hcall.sameBefore (h.clock.trans hnow) s.db
    change b ∈ Action.bucketsOf series (call.after s.db).tables at hb
    rw [← hsame.bucketsOf_eq series] at hb
    exact h.kept series b hb

theorem Orderly.afterExpiry_clear (h : Orderly config s) (c : Cutoffs) {cutoff : ℤ}
    (hcutoff : s.cutoff = some cutoff) (series : Series) :
    (afterExpiry c s.db.tables).Clear cutoff series := by
  obtain ⟨htraffic, hpeers⟩ := afterExpiry_raw c s.db.tables
  exact (h.clear cutoff hcutoff series).mono htraffic hpeers

theorem Orderly.afterExpiry_nonNegative (h : Orderly config s) (c : Cutoffs) (series : Series) :
    (afterExpiry c s.db.tables).NonNegative series := by
  obtain ⟨htraffic, hpeers⟩ := afterExpiry_raw c s.db.tables
  exact (h.nonNegative series).mono htraffic hpeers

/-- A bucket that a pass writes ends by its cutoff, but not by the one before. -/
theorem Orderly.written_between (h : Orderly config s) {series : Series} {b : Row}
    (hb : b ∈ bucketsWritten (.at now config) s.db.tables series) :
    compressedBucketSeconds ∣ b.ts ∧
      b.ts + compressedBucketSeconds ≤ (Cutoffs.at now config).rollup ∧
      ∀ cutoff, s.cutoff = some cutoff → cutoff < b.ts + compressedBucketSeconds := by
  have hrolled := mem_bucketsWritten hb
  obtain ⟨r, hr, hkey⟩ := mem_rolledUp hrolled
  have hstart : b.ts = bucketKey r.ts compressedBucketSeconds := congrArg Prod.snd hkey
  have hnonneg : 0 ≤ r.ts := rollable_nonneg (h.afterExpiry_nonNegative _ series) hr
  have hlt := rollable_earlier hr
  have hle := bucketKey_le hnonneg (show 1 ≤ compressedBucketSeconds by decide)
  have hdvd : compressedBucketSeconds ∣ b.ts := by
    rw [hstart]
    exact Int.dvd_mul_left ..
  refine ⟨hdvd, ?_, fun cutoff hcutoff => ?_⟩
  · -- Both are starts of buckets and the bucket starts before the cutoff, so it ends by then.
    obtain ⟨p, hp⟩ := hdvd
    rcases rollup_aligned config now with ⟨q, hq⟩ | hearly
    · unfold compressedBucketSeconds at *
      omega
    · omega
  · have hsound : (afterExpiry (.at now config) s.db.tables).Sound := (h.sound.effect _).effect _
    exact (h.afterExpiry_clear _ hcutoff series).lt_of_rolledUp hsound.peers hrolled

theorem Orderly.new (h : Orderly config s) {series : Series} {b : Row}
    (hb : b ∈ bucketsWritten (.at now config) s.db.tables series) : b.key ∉ s.written series := by
  intro hin
  obtain ⟨-, cutoff, hcutoff, hend⟩ := h.whole series b.key hin
  obtain ⟨-, -, hlater⟩ := h.written_between hb
  have hstart := hlater cutoff hcutoff
  change b.ts + compressedBucketSeconds ≤ cutoff at hend
  omega

theorem Orderly.buckets_after (h : Orderly config s) {outcome : RetentionOutcome} {done : Database}
    (hpass : (Retention.pass (.at now config) vacuum).run s.db = (.ok outcome, done)) (series : Series) :
    Action.bucketsOf series done.tables =
      Action.bucketsOf series (afterExpiry (.at now config) s.db.tables) ++
        bucketsWritten (.at now config) s.db.tables series := by
  rw [pass_buckets hpass]
  apply foldl_merge_new _ (bucketsWritten_nodup _ _ series)
  intro b hb hin
  obtain ⟨old, hold, hkey⟩ := List.mem_map.mp hin
  apply h.new hb
  rw [← hkey]
  exact h.kept series old (afterExpiry_buckets hold)

theorem Orderly.pass (h : Orderly config s) (hnow : s.now ≤ now) {outcome : RetentionOutcome}
    {done : Database} (hpass : (Retention.pass (.at now config) vacuum).run s.db = (.ok outcome, done)) :
    Orderly config (s.pass now (.at now config) done) where
  clock := h.clock.trans hnow
  sound := by
    change done.tables.Sound
    rw [pass_tables hpass]
    exact (((h.sound.effect _).effect _).effect _).effect _
  nonNegative series := by
    obtain ⟨htraffic, hpeers⟩ := pass_raw hpass
    exact (h.nonNegative series).mono htraffic hpeers
  past cutoff hcutoff := (Option.some.inj hcutoff).ge
  clear cutoff hcutoff series := by
    obtain rfl : _ = cutoff := Option.some.inj hcutoff
    obtain ⟨removed, hstages, -⟩ := pass_ok hpass
    obtain ⟨-, hsettled⟩ := runStages_settles h.sound.peers (List.forall_mem_nil _) hstages
    cases series with
    | traffic => exact hsettled .rollUpTraffic (by decide)
    | peers => exact hsettled .rollUpPeers (by decide)
  whole series key hkey := by
    rcases List.mem_append.mp hkey with hold | hnew
    · obtain ⟨hdvd, cutoff, hcutoff, hend⟩ := h.whole series key hold
      have hpast := (h.past cutoff hcutoff).trans (rollup_mono config hnow)
      exact ⟨hdvd, _, rfl, hend.trans hpast⟩
    · obtain ⟨b, hb, rfl⟩ := List.mem_map.mp hnew
      obtain ⟨hdvd, hend, -⟩ := h.written_between hb
      exact ⟨hdvd, _, rfl, hend⟩
  once series := by
    apply (h.once series).append (bucketsWritten_nodup _ _ series)
    intro key hold hnew
    obtain ⟨b, hb, rfl⟩ := List.mem_map.mp hnew
    exact h.new hb hold
  kept series b hb := by
    change b ∈ Action.bucketsOf series done.tables at hb
    rw [h.buckets_after hpass] at hb
    rcases List.mem_append.mp hb with hold | hnew
    · exact List.mem_append_left _ (h.kept series b (afterExpiry_buckets hold))
    · exact List.mem_append_right _ (List.mem_map_of_mem hnew)

theorem Orderly.step (h : Orderly config s) {next : Course} (hstep : Step config s next) :
    Orderly config next := by
  cases hstep with
  | write hnow hcall => exact h.write hnow hcall
  | pass hnow hpass => exact h.pass hnow hpass

theorem Orderly.start {db : Database} (hempty : db.tables = .empty) (hnow : 0 ≤ now) :
    Orderly config (.start now db) := by
  unfold Course.start
  constructor
  · exact hnow
  · rw [hempty]
    exact Tables.Sound.empty
  · intro series
    rw [hempty]
    cases series with
    | traffic => exact List.forall_mem_nil _
    | peers => exact List.forall_mem_nil _
  · intro cutoff hcutoff
    cases hcutoff
  · intro cutoff hcutoff
    cases hcutoff
  · intro series
    exact List.forall_mem_nil _
  · intro series
    exact List.nodup_nil
  · intro series
    rw [hempty]
    cases series with
    | traffic => exact List.forall_mem_nil _
    | peers => exact List.forall_mem_nil _

theorem Reached.orderly (h : Reached config s) : Orderly config s := by
  induction h with
  | start hempty hnow => exact .start hempty hnow
  | step _ hstep ih => exact ih.step hstep

end Steps

/-- Buckets are written whole and once. In whatever becomes of an empty store, every bucket is
aligned and ends by the latest cutoff, before all raw traffic; and no pass writes a bucket of a key
that some pass has written before, so that its buckets are only added to those that it keeps. -/
theorem buckets_written_whole_and_once {config : RetentionConfig} {s : Course}
    (h : Reached config s) :
    (∀ series, ∀ b ∈ Action.bucketsOf series s.db.tables, b.key ∈ s.written series ∧
      compressedBucketSeconds ∣ b.ts ∧
      ∃ cutoff, s.cutoff = some cutoff ∧ b.ts + compressedBucketSeconds ≤ cutoff) ∧
    (∀ cutoff, s.cutoff = some cutoff → ∀ r ∈ s.db.tables.traffic, cutoff ≤ r.ts) ∧
    (∀ b ∈ s.db.tables.trafficBuckets, ∀ r ∈ s.db.tables.traffic,
      bucketKey r.ts compressedBucketSeconds ≠ b.ts) ∧
    (∀ series, (s.written series).Nodup) ∧
    ∀ now vacuum outcome done,
      (Retention.pass (.at now config) vacuum).run s.db = (.ok outcome, done) →
      ∀ series, (∀ b ∈ bucketsWritten (.at now config) s.db.tables series,
          b.key ∉ s.written series) ∧
        Action.bucketsOf series done.tables =
          Action.bucketsOf series (afterExpiry (.at now config) s.db.tables) ++
            bucketsWritten (.at now config) s.db.tables series := by
  have horder := h.orderly
  have hwhole : ∀ series, ∀ b ∈ Action.bucketsOf series s.db.tables, b.key ∈ s.written series ∧
      compressedBucketSeconds ∣ b.ts ∧
      ∃ cutoff, s.cutoff = some cutoff ∧ b.ts + compressedBucketSeconds ≤ cutoff := by
    intro series b hb
    have hkept := horder.kept series b hb
    exact ⟨hkept, horder.whole series b.key hkept⟩
  refine ⟨hwhole, fun cutoff hcutoff => horder.clear cutoff hcutoff .traffic, ?_, horder.once, ?_⟩
  · intro b hb r hr hsame
    obtain ⟨-, -, cutoff, hcutoff, hend⟩ := hwhole .traffic b hb
    have hlater := horder.clear cutoff hcutoff .traffic r hr
    have hstart := lt_bucketKey_add (show 0 < compressedBucketSeconds by decide) r.ts
    omega
  · intro now vacuum outcome done hpass series
    exact ⟨fun b hb => horder.new hb, horder.buckets_after hpass series⟩

def hourly : RetentionConfig := { compressAfter := .ofSeconds 3600 }

def firstBucket : Course :=
  let s := (((Course.start 0 Database.blank).write 100 (.append [⟨"a", 100, 10, 1⟩])).write 28799
    (.appendPeers [⟨"p", 28799, 50, 60, "e"⟩])).write 28800 (.appendPeers [⟨"p", 28800, 70, 90, "e"⟩])
  s.pass 32400 (.at 32400 hourly) ((pass (.at 32400 hourly) (.ok ())).run s.db).2

def secondBucket : Course :=
  let s := firstBucket.write 32400 (.merge [⟨"a", 32400, 5, 5⟩, ⟨"a", 32400, 3, 3⟩])
  s.pass 61200 (.at 61200 hourly) ((pass (.at 61200 hourly) (.ok ())).run s.db).2

theorem buckets_written_whole_and_once_in_two_passes :
    Reached hourly secondBucket ∧ secondBucket.cutoff = some 57600 ∧
      secondBucket.db.tables.trafficBuckets =
        [⟨"a", 0, .int 10, .int 1⟩, ⟨"a", 28800, .int 8, .int 8⟩] ∧
      secondBucket.db.tables.peerBuckets = [⟨"p", 28800, .int 20, .int 30⟩] ∧
      (∀ series, (secondBucket.written series).Nodup) ∧
      secondBucket.written .traffic = [("a", 0), ("a", 28800)] := by
  have hfirst : Reached hourly firstBucket := by
    refine .step (.step (.step (.step (.start rfl le_rfl) (.write ?_ ?_)) (.write ?_ ?_))
      (.write ?_ ?_)) (@Step.pass _ _ _ (.ok ()) ⟨0, 0, 1, 0, true⟩ _ ?_ (Prod.ext ?_ rfl))
    all_goals decide +kernel
  have hsecond : Reached hourly secondBucket := by
    refine .step (.step hfirst (.write ?_ ?_))
      (@Step.pass _ _ _ (.ok ()) ⟨0, 0, 1, 1, true⟩ _ ?_ (Prod.ext ?_ rfl))
    all_goals decide +kernel
  obtain ⟨-, -, -, honce, -⟩ := buckets_written_whole_and_once hsecond
  exact ⟨hsecond, by decide +kernel, by decide +kernel, by decide +kernel, honce, by decide +kernel⟩

end Retention

end TrafficMeter

import TrafficMeter.Proofs.Store.Rollups

/-!
Actions that cannot tell databases apart. Two actions agree on a relation if from related databases
they come to the same outcome, failures included, and to related databases. Maintenance up to a moment
agrees with itself on databases that are the same before the moment, whatever came later.
-/

namespace TrafficMeter.Store

namespace Action

variable {α β : Type} {rel : Database → Database → Prop}

def Agree (rel : Database → Database → Prop) (a b : Action α) : Prop :=
  ∀ db other, rel db other → (a db).1 = (b other).1 ∧ rel (a db).2 (b other).2

namespace Agree

theorem pure (x : α) : Agree rel (Pure.pure x) (Pure.pure x) := fun _ _ h => ⟨rfl, h⟩

theorem cases {a b : Action α} {db other : Database} (h : Agree rel a b) (hrel : rel db other) :
    (∃ failure mid mid', a db = (.error failure, mid) ∧ b other = (.error failure, mid') ∧
      rel mid mid') ∨
    ∃ x mid mid', a db = (.ok x, mid) ∧ b other = (.ok x, mid') ∧ rel mid mid' := by
  obtain ⟨hout, hmid⟩ := h db other hrel
  cases ha : a db with
  | mk result mid =>
    cases hb : b other with
    | mk result' mid' =>
      rw [ha, hb] at hout hmid
      change result = result' at hout
      subst hout
      cases result with
      | error failure => exact Or.inl ⟨failure, mid, mid', rfl, rfl, hmid⟩
      | ok x => exact Or.inr ⟨x, mid, mid', rfl, rfl, hmid⟩

theorem bind {a b : Action α} {f g : α → Action β} (h : Agree rel a b)
    (k : ∀ x, Agree rel (f x) (g x)) : Agree rel (a >>= f) (b >>= g) := by
  intro db other hrel
  change (Action.bind a f db).1 = (Action.bind b g other).1 ∧
    rel (Action.bind a f db).2 (Action.bind b g other).2
  unfold Action.bind
  rcases h.cases hrel with ⟨failure, mid, mid', ha, hb, hmid⟩ | ⟨x, mid, mid', ha, hb, hmid⟩
  · rw [ha, hb]
    exact ⟨rfl, hmid⟩
  · rw [ha, hb]
    exact k x mid mid' hmid

theorem read {f g : Database → Action α}
    (h : ∀ db other, rel db other → Agree rel (f db) (g other)) :
    Agree rel (database >>= f) (database >>= g) :=
  fun db other hrel => h db other hrel db other hrel

theorem within {a b : Action α} (activity : String) (h : Agree rel a b) :
    Agree rel (within activity a) (within activity b) := by
  intro db other hrel
  unfold Action.within
  rcases h.cases hrel with ⟨failure, mid, mid', ha, hb, hmid⟩ | ⟨x, mid, mid', ha, hb, hmid⟩
  · rw [ha, hb]
    exact ⟨rfl, hmid⟩
  · rw [ha, hb]
    exact ⟨rfl, hmid⟩

/-- What a transaction undoes leaves the related databases that it started on. -/
theorem atomically {a b : Action α} (h : Agree rel a b) :
    Agree rel (atomically a) (atomically b) := by
  intro db other hrel
  unfold Action.atomically
  rcases h.cases hrel with ⟨failure, mid, mid', ha, hb, -⟩ | ⟨x, mid, mid', ha, hb, hmid⟩
  · rw [ha, hb]
    exact ⟨rfl, hrel⟩
  · rw [ha, hb]
    exact ⟨rfl, hmid⟩

theorem modifyTables {f g : Tables → Tables}
    (h : ∀ db other, rel db other →
      rel { db with tables := f db.tables } { other with tables := g other.tables }) :
    Agree rel (modifyTables f) (modifyTables g) :=
  fun db other hrel => ⟨rfl, h db other hrel⟩

theorem lift (result : Except StoreFault α) : Agree rel (lift result) (lift result) := by
  intro db other hrel
  cases result with
  | error fault => exact ⟨rfl, hrel⟩
  | ok x => exact ⟨rfl, hrel⟩

theorem forM {a b : α → Action PUnit} (h : ∀ x, Agree rel (a x) (b x)) (l : List α) :
    Agree rel (l.forM a) (l.forM b) := by
  induction l with
  | nil => exact pure PUnit.unit
  | cons x rest ih => exact (h x).bind fun _ => ih

theorem writeAll {a b : α → Action ℕ} {l : List α} (h : ∀ x ∈ l, Agree rel (a x) (b x)) :
    Agree rel (writeAll a l) (writeAll b l) := by
  induction l with
  | nil => exact pure 0
  | cons x rest ih =>
    have hrest := ih fun y hy => h y (List.mem_cons_of_mem x hy)
    exact (h x List.mem_cons_self).bind fun _ => hrest.bind fun _ => pure _

section Guards

variable (hguards : ∀ db other, rel db other → db.guards = other.guards)

include hguards

theorem permit (table : Table) (change : Change) (id : String) :
    Agree rel (permit table change id) (permit table change id) := by
  intro db other hrel
  have hsame : db.refuses table change id = other.refuses table change id := by
    unfold Database.refuses
    rw [hguards db other hrel]
  unfold Action.permit
  rw [hsame]
  split
  · exact ⟨rfl, hrel⟩
  · exact ⟨rfl, hrel⟩

theorem watched (table : Table) (change : Change) :
    Agree rel (watched table change) (watched table change) := by
  refine read fun db other hrel => ?_
  rw [hguards db other hrel]
  exact pure _

end Guards

end Agree

end Action

theorem flatMap_filter_of_nil {α β : Type} {p : α → Bool} {f : α → List β} {l : List α}
    (h : ∀ a ∈ l, p a = false → f a = []) : (l.filter p).flatMap f = l.flatMap f := by
  induction l with
  | nil => rfl
  | cons a rest ih =>
    have hrest := ih fun b hb => h b (List.mem_cons_of_mem a hb)
    cases hp : p a with
    | true => rw [List.filter_cons_of_pos hp, List.flatMap_cons, List.flatMap_cons, hrest]
    | false =>
      rw [List.filter_cons_of_neg (by simp [hp]), List.flatMap_cons, h a List.mem_cons_self hp, hrest]
      rfl

theorem rollable_peers (t : Tables) (cutoff : ℤ) : t.rollable cutoff .peers =
      (sortedKeys ((t.peers.filter fun s => s.ts < cutoff).map (·.id))).flatMap
        fun peer => growths (historyBefore t.peers cutoff peer) := by
  have hids : sortedKeys ((t.peers.filter fun s => s.ts < cutoff).map (·.id)) = t.peerIds.filter
      fun peer => decide (peer ∈ (t.peers.filter fun s => s.ts < cutoff).map (·.id)) := by
    rw [Tables.peerIds, filter_sortedKeys]
    apply sortedKeys_congr
    intro peer
    rw [List.mem_filter, decide_eq_true_eq]
    refine ⟨fun h => ⟨?_, h⟩, And.right⟩
    exact List.map_subset _ (List.filter_subset_self _) h
  rw [hids, flatMap_filter_of_nil, Tables.rollable]
  intro peer _ hnone
  have hempty : historyBefore t.peers cutoff peer = [] := by
    rw [List.eq_nil_iff_forall_not_mem]
    intro s hs
    obtain ⟨hin, hid, hlt⟩ := mem_historyBefore.mp hs
    apply of_decide_eq_false hnone
    exact List.mem_map.mpr ⟨s, List.mem_filter.mpr ⟨hin, decide_eq_true hlt⟩, hid⟩
  rw [hempty]
  rfl

structure Tables.SameBefore (moment : ℤ) (t u : Tables) : Prop where
  traffic : (t.traffic.filter fun r => r.ts < moment) = u.traffic.filter fun r => r.ts < moment
  peers : (t.peers.filter fun s => s.ts < moment) = u.peers.filter fun s => s.ts < moment
  trafficBuckets : t.trafficBuckets = u.trafficBuckets
  peerBuckets : t.peerBuckets = u.peerBuckets

namespace Tables.SameBefore

variable {moment cutoff : ℤ} {t u : Tables}

theorem symm (h : SameBefore moment t u) : SameBefore moment u t :=
  ⟨h.traffic.symm, h.peers.symm, h.trafficBuckets.symm, h.peerBuckets.symm⟩

variable (h : SameBefore moment t u) (hc : cutoff ≤ moment)

include h

theorem mem_traffic {r : Row} (hr : r ∈ u.traffic) (hlt : r.ts < moment) : r ∈ t.traffic := by
  have hin : r ∈ u.traffic.filter fun r => r.ts < moment :=
    List.mem_filter.mpr ⟨hr, decide_eq_true hlt⟩
  rw [← h.traffic] at hin
  exact (List.mem_filter.mp hin).1

theorem mem_peers {s : Snapshot} (hs : s ∈ u.peers) (hlt : s.ts < moment) : s ∈ t.peers := by
  have hin : s ∈ u.peers.filter fun s => s.ts < moment :=
    List.mem_filter.mpr ⟨hs, decide_eq_true hlt⟩
  rw [← h.peers] at hin
  exact (List.mem_filter.mp hin).1

include hc

theorem trafficRows : (t.traffic.filter fun r => r.ts < cutoff) =
    u.traffic.filter fun r => r.ts < cutoff := by
  refine filter_of_filter h.traffic fun r hr => ?_
  exact decide_eq_true ((of_decide_eq_true hr).trans_le hc)

theorem peerRows {p : Snapshot → Bool} (hp : ∀ s, p s = true → s.ts < cutoff) :
    t.peers.filter p = u.peers.filter p :=
  filter_of_filter h.peers fun s hs => decide_eq_true ((hp s hs).trans_le hc)

theorem superseded_eq : superseded t.peers cutoff = superseded u.peers cutoff := by
  funext s
  rw [Bool.eq_iff_iff, superseded_iff, superseded_iff]
  refine and_congr_right fun _ => exists_congr fun a => ?_
  constructor
  · rintro ⟨ha, hid, hac, hlt⟩
    exact ⟨h.symm.mem_peers ha (hac.trans_le hc), hid, hac, hlt⟩
  · rintro ⟨ha, hid, hac, hlt⟩
    exact ⟨h.mem_peers ha (hac.trans_le hc), hid, hac, hlt⟩

theorem supersededRows : t.peers.filter (superseded t.peers cutoff) =
    u.peers.filter (superseded u.peers cutoff) := by
  rw [← h.superseded_eq hc]
  exact h.peerRows hc fun s hs => (superseded_iff.mp hs).1

theorem historyBefore_eq (peer : String) :
    historyBefore t.peers cutoff peer = historyBefore u.peers cutoff peer := by
  unfold historyBefore
  rw [h.peerRows hc fun s hs => of_decide_eq_true (Bool.and_eq_true_iff.mp hs).2]

theorem rolledUp_eq (series : Series) (width : ℤ) :
    t.rolledUp series cutoff width = u.rolledUp series cutoff width := by
  apply rolledUp_congr
  cases series with
  | traffic => exact h.trafficRows hc
  | peers =>
    rw [rollable_peers, rollable_peers, h.peerRows hc fun s => of_decide_eq_true]
    simp only [h.historyBefore_eq hc]

theorem prune (series : Series) : SameBefore moment (t.prune cutoff series) (u.prune cutoff series) := by
  cases series with
  | traffic =>
    refine ⟨?_, h.peers, h.trafficBuckets, h.peerBuckets⟩
    change (t.traffic.filter _).filter _ = (u.traffic.filter _).filter _
    rw [List.filter_comm, h.traffic, List.filter_comm]
  | peers =>
    refine ⟨h.traffic, ?_, h.trafficBuckets, h.peerBuckets⟩
    change (t.peers.filter _).filter _ = (u.peers.filter _).filter _
    rw [List.filter_comm, h.peers, List.filter_comm, h.superseded_eq hc]

omit hc

theorem bucketsOf_eq (series : Series) : Action.bucketsOf series t = Action.bucketsOf series u := by
  cases series with
  | traffic => exact h.trafficBuckets
  | peers => exact h.peerBuckets

theorem withBuckets (f : List Row → List Row) (series : Series) :
    SameBefore moment (t.withBuckets f series) (u.withBuckets f series) := by
  cases series with
  | traffic => exact ⟨h.traffic, h.peers, congrArg f h.trafficBuckets, h.peerBuckets⟩
  | peers => exact ⟨h.traffic, h.peers, h.trafficBuckets, congrArg f h.peerBuckets⟩

end Tables.SameBefore

/-- The same guards, and the same tables as far as maintenance before a moment reads them. -/
structure Database.SameBefore (moment : ℤ) (db other : Database) : Prop where
  guards : db.guards = other.guards
  tables : db.tables.SameBefore moment other.tables

namespace Action

variable {α : Type} {moment cutoff : ℤ}

/-- The action does not see what lies at the moment or after it. -/
def Blind (moment : ℤ) (action : Action α) : Prop :=
  Agree (Database.SameBefore moment) action action

theorem permit_blind (table : Table) (change : Change) (id : String) :
    (permit table change id).Blind moment :=
  Agree.permit (fun _ _ h => h.guards) table change id

theorem forM_permit_blind (table : Table) (change : Change) (key : α → String)
    (l : List α) : Blind moment (l.forM fun a => permit table change (key a)) :=
  Agree.forM (fun a => permit_blind table change (key a)) l

section Raw

variable (hc : cutoff ≤ moment)

include hc

theorem deleteTraffic_blind : Blind moment (deleteTraffic fun r => r.ts < cutoff) := by
  refine Agree.read fun db other h => ?_
  dsimp only
  rw [h.tables.trafficRows hc]
  refine (forM_permit_blind _ _ _ _).bind fun _ => Agree.bind ?_ fun _ => Agree.pure _
  exact Agree.modifyTables fun db other h => ⟨h.guards, h.tables.prune hc .traffic⟩

theorem deleteSuperseded_blind : Blind moment (deleteSuperseded cutoff) := by
  refine Agree.read fun db other h => ?_
  dsimp only
  rw [h.tables.supersededRows hc]
  refine (forM_permit_blind _ _ _ _).bind fun _ => Agree.bind ?_ fun _ => Agree.pure _
  have hpeers := (h.tables.prune hc .peers).peers
  exact Agree.modifyTables fun db other h => ⟨h.guards, { h.tables with peers := hpeers }⟩

theorem deleteRaw_blind (series : Series) : Blind moment (deleteRaw series cutoff) := by
  cases series with
  | traffic => exact deleteTraffic_blind hc
  | peers => exact deleteSuperseded_blind hc

end Raw

theorem modifyBuckets_blind (series : Series) (f : List Row → List Row) :
    (modifyBuckets series f).Blind moment := by
  cases series with
  | traffic =>
    exact Agree.modifyTables fun db other h => ⟨h.guards, h.tables.withBuckets f .traffic⟩
  | peers => exact Agree.modifyTables fun db other h => ⟨h.guards, h.tables.withBuckets f .peers⟩

theorem deleteBuckets_blind (series : Series) (cutoff : ℤ) :
    (deleteBuckets series cutoff).Blind moment := by
  refine Agree.read fun db other h => ?_
  dsimp only
  rw [h.tables.bucketsOf_eq series]
  exact (forM_permit_blind _ _ _ _).bind fun _ => modifyBuckets_blind series _

theorem mergeBucket_blind (series : Series) (r : Row) : (mergeBucket series r).Blind moment := by
  refine (permit_blind _ _ _).bind fun _ => Agree.read fun db other h => ?_
  dsimp only
  rw [h.tables.bucketsOf_eq series]
  split
  · exact (permit_blind _ _ _).bind fun _ => modifyBuckets_blind series _
  · exact modifyBuckets_blind series _

theorem mergeBuckets_blind (series : Series) (buckets : List (Except StoreFault Row)) :
    (mergeBuckets series buckets).Blind moment := by
  refine (Agree.watched (fun _ _ h => h.guards) _ _).bind fun guarded => ?_
  split
  · exact (Agree.lift _).bind fun rows => Agree.forM (mergeBucket_blind series) rows
  · refine Agree.forM (fun bucket => ?_) buckets
    exact (Agree.lift bucket).bind fun r => mergeBucket_blind series r

theorem hardDeleteBefore_blind (series : Series) (hc : cutoff ≤ moment) :
    (hardDeleteBefore series cutoff).Blind moment := by
  refine Agree.atomically (Agree.bind ((deleteRaw_blind hc series).within _) fun removed => ?_)
  exact ((deleteBuckets_blind series cutoff).within _).bind fun _ => Agree.pure removed

theorem compressBefore_blind (series : Series) (hc : cutoff ≤ moment) (width : ℤ) :
    (compressBefore series cutoff width).Blind moment := by
  refine Agree.atomically (Agree.bind (Agree.within _ ?_) fun _ => (deleteRaw_blind hc series).within _)
  refine Agree.read fun db other h => ?_
  rw [h.tables.rolledUp_eq hc]
  exact mergeBuckets_blind series _

end Action

end TrafficMeter.Store
